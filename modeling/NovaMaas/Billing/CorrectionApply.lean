/-
  Applying and reversing a correction: `model/billing_correction_apply.go` and the second half of
  `model/billing_correction_cost.go`.

  One transaction moves the money row by row (credits first), appends one ledger event per row, hands
  the claim on each source entry over, appends the supplier cost adjustments, and updates the usage
  counters of user, tokens and channels.  A reversal runs the same code with the signs turned.

  `clock` gives the time read while a row is posted.
-/
import NovaMaas.Billing.Correction

namespace NovaMaas.Billing

open Txn

/-! ## Identifiers -/

/-- The next auto-increment value after these. -/
def nextRowID (ids : List ℤ) : ℤ := ids.foldr max 0 + 1

theorem lt_nextRowID {ids : List ℤ} {x : ℤ} (h : x ∈ ids) : x < nextRowID ids := by
  have := EntryTable.le_foldr_max h
  unfold nextRowID
  omega

theorem nextRowID_pos (ids : List ℤ) : 0 < nextRowID ids := by
  have h0 : 0 ≤ ids.foldr max 0 := by
    induction ids with
    | nil => exact Int.le_refl 0
    | cons x xs ih => exact Int.le_trans ih (Int.le_max_right _ _)
  unfold nextRowID
  omega

def createSnapshot (snapshot : CostAccountingSnapshot) : Tx Unit := do
  let db ← get
  rejectIf (db.snapshots.rows.any fun s => s.eventKey = snapshot.eventKey) .duplicatedKey
  modify (·.putSnapshot { snapshot with id := nextRowID (db.snapshots.rows.map CostAccountingSnapshot.id) })

def createAdjustment (adjustment : CostAccountingAdjustment) : Tx Unit := do
  let db ← get
  rejectIf (db.adjustments.rows.any fun a =>
    adjustment.eventKey.isSome && a.eventKey = adjustment.eventKey) .duplicatedKey
  modify (·.putAdjustment
    { adjustment with id := nextRowID (db.adjustments.rows.map CostAccountingAdjustment.id) })

/-- `"apply"` or `"reverse"`, as event keys spell it. -/
def actionText (reverse : Bool) : String := if reverse then "reverse" else "apply"

/-! ## Supplier costs -/

/-- The rows that change a cost, with what they froze. -/
def costTargets (rows : List BillingCorrectionRow) : List (BillingCorrectionRow × BillingCorrectionCost) :=
  rows.filterMap fun row => if row.costChanged then row.targetCost.map fun frozen => (row, frozen) else none

/-- The adjustment that sets a snapshot to its target, or back to where it was. -/
def costAdjustment (now : ℤ) (batch : BillingCorrection) (actorID : ℤ) (reverse : Bool)
    (reason : String) (state : CostAccountingState) (frozen : BillingCorrectionCost) :
    CostAccountingAdjustment :=
  let quota := if reverse then frozen.currentQuota else frozen.targetQuota
  { eventKey := some ("billing-cost:" ++ actionText reverse ++ ":" ++ batch.id ++ ":" ++ toString frozen.snapshotID)
    snapshotID := frozen.snapshotID
    deltaCostQuota := quota - state.quota
    newCostQuota := quota
    costBasisQuota := if reverse then frozen.currentBasis else frozen.targetBasis
    costBasisBefore := if reverse then frozen.currentBefore else frozen.targetBefore
    costBasisAfter := if reverse then frozen.currentAfter else frozen.targetAfter
    costDiscount := if reverse then frozen.currentDiscount else frozen.targetDiscount
    basisVersion := if reverse then frozen.currentBasisVersion else frozen.targetBasisVersion
    correctionID := batch.id
    action := if reverse then .reverse else .apply
    previousAdjustmentID := frozen.stateAdjustmentID
    actorID := actorID
    batchID := batch.id
    createdAt := now
    reason := String.ofList ((if reverse then reason else batch.reason).toList.take 500) }

/-- A cost can be reversed while this batch's adjustment is the one in force. -/
def costReversible (batch : BillingCorrection) (state : CostAccountingState)
    (adjustments : List CostAccountingAdjustment) (frozen : BillingCorrectionCost) : Bool :=
  match (adjustments.filter fun a => a.correctionID = batch.id && a.action = .apply).getLast? with
  | none => false
  | some applied => state.stateID = applied.id && state.quota = frozen.targetQuota

/-- A cost can be applied while its evidence and the channel's discount are the previewed ones. -/
def costApplicable (db : DB) (row : BillingCorrectionRow) (snapshot : CostAccountingSnapshot)
    (state : CostAccountingState) (adjustments : List CostAccountingAdjustment)
    (frozen : BillingCorrectionCost) : Except BillingError Unit :=
  if frozen.evidenceSHA256 ≠ { content := (snapshot, adjustments) } ∨
      state.latestID ≠ frozen.latestAdjustmentID then .error .conflict
  else
    match db.channels.get? row.channelID with
    | none => .error .recordNotFound
    | some channel =>
      match normalizeCostDiscount channel.costDiscount with
      | .ok discount => if discount ≠ frozen.channelDiscount then .error .conflict else .ok ()
      | .error _ => .error .conflict

/-- The guard of one cost. -/
def costGuard (db : DB) (batch : BillingCorrection) (reverse : Bool) (row : BillingCorrectionRow)
    (snapshot : CostAccountingSnapshot) (state : CostAccountingState)
    (frozen : BillingCorrectionCost) : Except BillingError Unit :=
  if reverse then
    if costReversible batch state (adjustmentsOf db snapshot.id) frozen then .ok ()
    else .error .correctionDependency
  else costApplicable db row snapshot state (adjustmentsOf db snapshot.id) frozen

/-- One cost.  `last` is the snapshot of the cost before it: two rows of one snapshot are refused. -/
def applyCost (now : ℤ) (batch : BillingCorrection) (actorID : ℤ) (reverse : Bool) (reason : String)
    (last : Option ℤ) (target : BillingCorrectionRow × BillingCorrectionCost) : Tx (Option ℤ) := do
  rejectIf (last = some target.2.snapshotID) .evidenceIntegrity
  let db ← get
  let snapshot ← require (db.snapshots.get? target.2.snapshotID) .recordNotFound
  rejectIf (snapshot.userID ≠ batch.userID ∨ snapshot.modelName ≠ target.1.modelName ∨
    snapshot.channelID ≠ target.1.channelID ∨ snapshot.revenueQuota ≠ target.1.originalQuota) .conflict
  let state ← ofExcept (effectiveCostAccountingState snapshot (adjustmentsOf db snapshot.id))
  ofExcept (costGuard db batch reverse target.1 snapshot state target.2)
  createAdjustment (costAdjustment now batch actorID reverse reason state target.2)
  pure (some target.2.snapshotID)

/-- `billingCorrectionApplyCosts`. -/
def billingCorrectionApplyCosts (now : ℤ) (batch : BillingCorrection) (actorID : ℤ) (reverse : Bool)
    (reason : String) : Tx Unit := do
  rejectIf ((costTargets batch.rows).any fun t => t.2.version ≠ 1 || t.2.snapshotID ≤ 0) .conflict
  drop (forEach (applyCost now batch actorID reverse reason) none
    (orderBy (fun t => t.2.snapshotID) (costTargets batch.rows)))

/-! ## Rows -/

/-- The signed amount a row posts. -/
def rowDelta (reverse : Bool) (row : BillingCorrectionRow) : ℤ := if reverse then -row.delta else row.delta

/-- The group and rate a row's event carries.  A reversal takes the effective ones the row froze, and
    the original ones where the row froze no effective GROUP. -/
def rowTarget (batch : BillingCorrection) (reverse : Bool) (row : BillingCorrectionRow) : String × String :=
  if reverse then
    if row.effectiveGroup ≠ "" then (row.effectiveGroup, row.effectiveRate)
    else (row.originalGroup, row.originalRate)
  else if row.targetGroup ≠ "" then (row.targetGroup, row.targetRate)
  else (batch.targetGroup, batch.targetRate)

/-- The event key of a row. -/
def correctionKey (batch : BillingCorrection) (reverse : Bool) (row : BillingCorrectionRow) : String :=
  "correction:" ++ actionText reverse ++ ":" ++ batch.id ++ ":" ++ toString row.sourceEntryID

/-- The ledger event of a row. -/
def correctionEvent (env : CorrectionEnv) (batch : BillingCorrection) (actorID : ℤ) (reverse : Bool)
    (row : BillingCorrectionRow) : BillingEntry where
  eventKey := correctionKey batch reverse row
  kind := .rateCorrection
  quota := rowDelta reverse row
  walletDelta := -rowDelta reverse row
  actorID := actorID
  correctionID := batch.id
  sourceEntryID := row.sourceEntryID
  modelName := row.modelName
  tokenID := row.tokenID
  billingGroup := (rowTarget batch reverse row).1
  billingRate := (rowTarget batch reverse row).2
  requestID := env.requestID (correctionKey batch reverse row)

/-- Hand the claim on the source entry over: to this batch, or back to the previous one. -/
def claimRow (batch : BillingCorrection) (reverse : Bool) (row : BillingCorrectionRow) : Tx Unit := do
  rejectIf (row.blocked ≠ none) .correctionBlocked
  let db ← get
  rejectIf (reverse ∧ claimOf db row.sourceEntryID ≠ batch.id) .correctionDependency
  rejectIf (¬ reverse ∧ claimOf db row.sourceEntryID ≠ row.previousBatchID) .conflict
  modify (·.putClaim
    { sourceEntryID := row.sourceEntryID
      batchID := if reverse then row.previousBatchID else batch.id })

/-- What the loop over the rows carries: the user row and the sums by token and channel. -/
structure Posting where
  user : User
  tokens : Counter ℤ := .empty
  channels : Counter ℤ := .empty

/-- The name of the row's token, which must be the user's. -/
def sourceToken (userID : ℤ) (row : BillingCorrectionRow) : Tx String :=
  if row.tokenID > 0 then do
    let db ← get
    let token ← require (db.tokens.get? row.tokenID) .recordNotFound
    rejectIf (token.userID ≠ userID) .conflict
    pure token.name
  else pure ""

/-- The revenue snapshot of a posted row. -/
def revenueSnapshot (batch : BillingCorrection) (reverse : Bool) (row : BillingCorrectionRow)
    (user : User) (entry : BillingEntry) (tokenName : String) : CostAccountingSnapshot where
  eventKey := entry.eventKey
  requestID := entry.requestID
  userID := user.id
  username := user.username
  tokenName := tokenName
  modelName := row.modelName
  channelID := row.channelID
  groupName := (rowTarget batch reverse row).1
  logType := .billingCorrection
  occurredAt := entry.postedAt
  revenueQuota := rowDelta reverse row
  costBasisQuota := some { value := 0 }
  costDiscount := "0"
  snapshotVersion := 4
  source := "correction"
  batchID := batch.id
  createdAt := entry.postedAt

/-- Zero-money events freeze a changed group or rate without creating revenue. -/
def recordRevenue (batch : BillingCorrection) (reverse : Bool) (row : BillingCorrectionRow)
    (p : Posting) (user : User) (entry : BillingEntry) : Tx Posting :=
  if rowDelta reverse row = 0 then pure { p with user := user }
  else do
    let tokenName ← sourceToken user.id row
    createSnapshot (revenueSnapshot batch reverse row user entry tokenName)
    pure {
      user := user
      tokens := p.tokens.bump row.tokenID (rowDelta reverse row)
      channels := p.channels.bump row.channelID (rowDelta reverse row) }

/-- One row. -/
def applyRow (env : CorrectionEnv) (clock : ℤ → ℤ) (batch : BillingCorrection) (actorID : ℤ)
    (reverse : Bool) (p : Posting) (row : BillingCorrectionRow) : Tx Posting := do
  claimRow batch reverse row
  let user ← changeBillingWallet p.user (-rowDelta reverse row)
  let entry ← appendBillingEntry (clock row.sourceEntryID) user
    (correctionEvent env batch actorID reverse row)
  recordRevenue batch reverse row p user entry

/-- Credits first prevent a temporarily negative wallet. -/
def postingOrder (reverse : Bool) (rows : List BillingCorrectionRow) : List BillingCorrectionRow :=
  orderBy (rowDelta reverse) rows

/-! ## Counters -/

/-- The positive keys of a counter, ascending. -/
def positiveKeys (c : Counter ℤ) : List ℤ :=
  orderBy (fun id => id) ((c.rows.map Prod.fst).filter fun id => 0 < id)

def applyToken (deltas : Counter ℤ) (id : ℤ) : Tx Unit := do
  let db ← get
  let token ← require (db.tokens.get? id) .recordNotFound
  rejectIf (token.usedQuota < 0 ∨ token.usedQuota > maxWalletQuota ∨
    token.remainQuota > maxWalletQuota ∨ token.remainQuota < -maxWalletQuota) .walletQuotaLimitExceeded
  let used := token.usedQuota + deltas.value id
  let remaining := token.remainQuota - deltas.value id
  rejectIf (used < 0 ∨ used > maxWalletQuota ∨ remaining > maxWalletQuota ∨
    remaining < -maxWalletQuota ∨ (¬ token.unlimitedQuota ∧ remaining < 0)) .insufficientQuota
  modify (·.putToken { token with usedQuota := used, remainQuota := remaining })

def applyChannel (deltas : Counter ℤ) (id : ℤ) : Tx Unit := do
  let db ← get
  let channel ← require (db.channels.get? id) .recordNotFound
  rejectIf (channel.usedQuota < 0 ∨ channel.usedQuota > maxWalletQuota) .walletQuotaLimitExceeded
  let used := channel.usedQuota + deltas.value id
  rejectIf (used < 0 ∨ used > maxWalletQuota) .walletQuotaLimitExceeded
  modify (·.putChannel { channel with usedQuota := used })

/-! ## The transaction -/

/-- The arguments of a call to `ApplyBillingCorrection`. -/
structure CorrectionRequest where
  id : String
  digest : Option (Sha256 CorrectionBody)
  rate : String := ""
  userGroup : String := ""
  actorID : ℤ
  reverse : Bool
  reason : String := ""
  now : ℤ
  clock : ℤ → ℤ
  finishedAt : ℤ

/-- The guards of a reversal. -/
def reverseGuard (batch : BillingCorrection) (request : CorrectionRequest) : Except BillingError Unit :=
  if batch.status ≠ .applied ∨ (trimSpace request.reason).utf8ByteSize < 4 ∨
      (trimSpace request.reason).length > 1000 then .error .conflict
  else .ok ()

/-- The guards of an application: nothing the preview depends on may have changed. -/
def applyGuard (env : CorrectionEnv) (db : DB) (batch : BillingCorrection) (user : User)
    (account : BillingAccount) (request : CorrectionRequest) : Except BillingError Unit := do
  if batch.status ≠ .preview ∨ batch.expiresAt < request.now ∨ batch.targetRate ≠ request.rate ∨
      batch.userGroup ≠ request.userGroup ∨ user.group ≠ request.userGroup ∨
      batch.sourceSequence ≠ account.sequence then .error .conflict
  else do
    let rows ← billingCorrectionEvidence env db batch account.startSequence
    if request.digest ≠ some (billingCorrectionDigest batch rows) then .error .conflict else .ok ()

def correctionGuard (env : CorrectionEnv) (db : DB) (batch : BillingCorrection) (user : User)
    (account : BillingAccount) (request : CorrectionRequest) : Except BillingError Unit :=
  if request.reverse then reverseGuard batch request
  else applyGuard env db batch user account request

/-- The batch after the call. -/
def closeBatch (batch : BillingCorrection) (request : CorrectionRequest) : BillingCorrection :=
  if request.reverse then
    { batch with
      status := .reversed, reversedAt := request.finishedAt
      reversalReason := trimSpace request.reason }
  else { batch with status := .applied, appliedAt := request.finishedAt }

/-- The signed net amount of a batch. -/
def netOf (batch : BillingCorrection) (reverse : Bool) : ℤ :=
  if reverse then -batch.netDelta else batch.netDelta

/-- The writes of an application or a reversal, once every guard has passed. -/
def postCorrection (env : CorrectionEnv) (batch : BillingCorrection) (user : User)
    (request : CorrectionRequest) : Tx BillingCorrection := do
  billingCorrectionApplyCosts request.now batch request.actorID request.reverse
    (trimSpace request.reason)
  let posting ← forEach (applyRow env request.clock batch request.actorID request.reverse)
    { user := user } (postingOrder request.reverse batch.rows)
  modify (·.putUser { posting.user with usedQuota := user.usedQuota + netOf batch request.reverse })
  forEach (fun _ id => applyToken posting.tokens id) () (positiveKeys posting.tokens)
  forEach (fun _ id => applyChannel posting.channels id) () (positiveKeys posting.channels)
  modify (·.putCorrection (closeBatch batch request))
  pure (closeBatch batch request)

/-- The body of the transaction. -/
def correctionBody (env : CorrectionEnv) (userID : ℤ) (request : CorrectionRequest) : Tx BillingCorrection := do
  let user ← firstUser userID
  let account ← lockBillingAccount userID
  let db ← get
  let batch ← require (db.corrections.get? request.id) .recordNotFound
  rejectIf (request.digest ≠ some (billingCorrectionDigest batch batch.rows) ∨
    batch.createdBy ≠ request.actorID) .conflict
  if (request.reverse = false ∧ batch.status = .applied) ∨
      (request.reverse = true ∧ batch.status = .reversed) then pure batch
  else do
    rejectIf (batch.canApply = false) .correctionBlocked
    rejectIf (db.operations.rows.any fun op => op.userID = user.id && op.state = .reserved)
      .correctionBlocked
    ofExcept (correctionGuard env db batch user account request)
    rejectIf (netOf batch request.reverse > user.quota) .insufficientQuota
    rejectIf (user.usedQuota < 0 ∨ user.usedQuota > maxWalletQuota) .walletQuotaLimitExceeded
    rejectIf (user.usedQuota + netOf batch request.reverse < 0 ∨
      user.usedQuota + netOf batch request.reverse > maxWalletQuota) .walletQuotaLimitExceeded
    postCorrection env batch user request

/-- `ApplyBillingCorrection`: apply a previewed batch, or reverse an applied one. -/
def applyBillingCorrection (env : CorrectionEnv) (request : CorrectionRequest) : Tx BillingCorrection := do
  let db ← get
  let batch ← require (db.corrections.get? request.id) .recordNotFound
  rejectIf (batch.createdBy ≠ request.actorID ∨ request.digest = none ∨ request.digest ≠ batch.sha256) .conflict
  transaction (correctionBody env batch.userID request)

end NovaMaas.Billing
