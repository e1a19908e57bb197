/-
  Previewing a correction: `model/billing_correction.go` and the evidence half of
  `model/billing_correction_cost.go`.

  `billingCorrectionEvidence` selects the source entries of a batch and computes one row for each.
  A row is computed from its own entry and the tables alone (`correctionRow`, then `costRow`), so the
  loops of the source are maps here; only the two walks over a task's lifecycle
  (`saleWalk`, `costWalk`) carry an accumulator from entry to entry.

  `row.Blocked` is assigned along the way and never cleared: the definition threads it through the
  same assignments in the same order.
-/
import NovaMaas.Billing.Evidence

namespace NovaMaas.Billing

open Txn

/-! ## Sales: one row per source entry -/

/-- The kinds of entries a correction can reprice. -/
def correctable (kind : EntryKind) : Bool :=
  kind = .usage || kind = .refund || kind = .taskAdjustment || kind = .historyUsage ||
    kind = .historyRefund

/-- The source entries of a batch, in ledger order. -/
def correctionSources (db : DB) (batch : BillingCorrection) (startSequence : ℤ) : List BillingEntry :=
  orderBy BillingEntry.sequence (db.entries.rows.filter fun e =>
    e.userID = batch.userID && e.postedAt ≥ batch.startAt && e.postedAt < batch.endAt &&
      batch.models.contains e.modelName && correctable e.kind && e.sequence ≥ startSequence &&
      e.sequence ≤ batch.sourceSequence)

/-- The batch that claims a source entry. -/
def claimOf (db : DB) (sourceID : ℤ) : String :=
  (db.claims.get? sourceID).elim "" BillingCorrectionClaim.batchID

/-- The pricing the claiming batch set for a source entry. -/
def previousPricing (db : DB) (sourceID : ℤ) : Option CorrectionPricing :=
  if claimOf db sourceID = "" then none
  else
    (db.corrections.get? (claimOf db sourceID)).bind fun previous =>
      (previous.rows.find? fun row => row.sourceEntryID = sourceID).bind
        BillingCorrectionRow.targetPricing

/-- The entries of a task within a batch. -/
def taskEntries (env : CorrectionEnv) (db : DB) (userID : ℤ) (entries : List BillingEntry)
    (taskID : String) : List BillingEntry :=
  entries.filter fun e => (historicalRate env db userID e).taskID = taskID

/-- The tasks of a user under a task id. -/
def tasksOf (db : DB) (userID : ℤ) (taskID : String) : List Task :=
  db.tasks.rows.filter fun t => t.userID = userID && t.taskID = taskID

/-- The four amounts a task can stand at, before and after the correction. -/
structure SaleTargets where
  oldSubmission : ℤ
  oldFinal : ℤ
  newSubmission : ℤ
  newFinal : ℤ

/-- What a task that stood at `cumulative` should stand at, or `none` for an amount that is neither
    of the two. -/
def SaleTargets.state (t : SaleTargets) (cumulative : ℤ) : Option ℤ :=
  if cumulative = 0 then some 0
  else if cumulative = t.oldSubmission then some t.newSubmission
  else if cumulative = t.oldFinal then some t.newFinal
  else none

/-- Walk a task's entries up to `entryID`: the corrected amounts before and after it, and whether an
    amount on the way contradicts the original price. -/
def saleWalk (t : SaleTargets) (success : Bool) (entryID : ℤ) :
    Bool → ℤ → ℤ → Option Blocked → List BillingEntry → ℤ × ℤ × Option Blocked
  | _, _, before, blocked, [] => (before, 0, blocked)
  | first, previous, before, blocked, source :: rest =>
    let cumulative := previous + source.quota
    let blocked := if cumulative < 0 ∨ cumulative > maxQuota then some .originalPriceMismatch else blocked
    let blocked := if (t.state cumulative).isNone then some .originalPriceMismatch else blocked
    -- the last entry of a successful task always stands at the final amount
    let corrected := if rest = [] ∧ success then t.newFinal else (t.state cumulative).getD 0
    let blocked := if first ∧ (previous ≠ 0 ∨ source.quota ≠ t.oldSubmission) then
      some .originalPriceMismatch else blocked
    if source.id = entryID then (before, corrected, blocked)
    else saleWalk t success entryID false cumulative corrected blocked rest

/-- The value of a computation that may fail, or zero. -/
def orZero (x : Except BillingError ℤ) : ℤ :=
  match x with
  | .ok n => n
  | .error _ => 0

def failed (x : Except BillingError ℤ) : Bool :=
  match x with
  | .ok _ => false
  | .error _ => true

/-- `row.Blocked = reason` under a condition. -/
def blockIf (c : Prop) [Decidable c] (reason : Blocked) (blocked : Option Blocked) : Option Blocked :=
  if c then some reason else blocked

/-- The prices a row is computed with: the pricing of the submission, the new one, and the new group
    rate. -/
structure RowPricing where
  old : CorrectionPricing
  oldErr : Option BillingError
  new : CorrectionPricing
  newErr : Option BillingError
  target : ℚ

/-- Decoding the previous pricing over the submission's: a field JSON leaves out keeps its value. -/
def decodePricing (old previous : CorrectionPricing) : CorrectionPricing :=
  { previous with totalTokens := if previous.totalTokens = 0 then old.totalTokens else previous.totalTokens }

/-- Which pricing a row uses.  A group-rate correction keeps the pricing the claiming batch set for
    THIS entry; a model-pricing correction keeps the entry's own effective rate. -/
def rowPricing (env : CorrectionEnv) (db : DB) (mode : CorrectionMode) (target : ℚ) (task : Task)
    (sourceID : ℤ) (effectiveRate : String) : RowPricing :=
  match mode with
  | .groupRate =>
    { old := (taskPricing task).1
      oldErr := (taskPricing task).2
      new := (previousPricing db sourceID).elim (taskPricing task).1 (decodePricing (taskPricing task).1)
      newErr := if (previousPricing db sourceID).isSome then none else (taskPricing task).2
      target := target }
  | .modelPricing =>
    { old := (taskPricing task).1
      oldErr := (taskPricing task).2
      new := (env.currentPricing task).1
      newErr := (env.currentPricing task).2
      target := (env.decodeFloat effectiveRate).getD 0 }

/-- The amounts of a task before and after the correction. -/
def saleTargets (env : CorrectionEnv) (db : DB) (mode : CorrectionMode) (p : RowPricing) (task : Task)
    (bc : TaskBillingContext) (sourceID : ℤ) : SaleTargets :=
  let oldSubmission := orZero (env.pricingQuota p.old bc.groupRatio false)
  let newSubmission := orZero (env.pricingQuota p.new p.target false)
  { oldSubmission := oldSubmission
    oldFinal :=
      if (mode = .modelPricing ∨ (previousPricing db sourceID).isSome) ∧ task.status = .success then
        -- the immutable terminal quota proves the original amount
        task.quota
      else if p.old.modelRatio > 0 ∧ ¬ p.old.perCallBilling ∧ p.old.totalTokens > 0 then
        orZero (env.pricingQuota p.old bc.groupRatio true)
      else oldSubmission
    newSubmission := newSubmission
    newFinal :=
      if p.new.modelRatio > 0 ∧ ¬ p.new.perCallBilling ∧ task.status = .success then
        orZero (env.pricingQuota p.new p.target true)
      else newSubmission }

/-- Did any of the price computations of a row fail? -/
def pricingFailed (env : CorrectionEnv) (p : RowPricing) (task : Task) (bc : TaskBillingContext) : Bool :=
  failed (env.pricingQuota p.old bc.groupRatio false) ||
    failed (env.pricingQuota p.new p.target false) ||
    (if p.old.modelRatio > 0 ∧ ¬ p.old.perCallBilling ∧ p.old.totalTokens > 0 then
      failed (env.pricingQuota p.old bc.groupRatio true) else p.oldErr.isSome) ||
    (if p.new.modelRatio > 0 ∧ ¬ p.new.perCallBilling ∧ task.status = .success then
      failed (env.pricingQuota p.new p.target true) else p.newErr.isSome)

/-- The correction of one entry of a priced task: the reason that blocks it, or its new amount. -/
def saleCorrection (env : CorrectionEnv) (db : DB) (mode : CorrectionMode) (rate : HistoricalRate)
    (p : RowPricing) (task : Task) (bc : TaskBillingContext) (lifecycle : List BillingEntry)
    (entry : BillingEntry) (blocked : Option Blocked) : Option Blocked × ℤ :=
  let blocked := blockIf (env.encodeFloat bc.groupRatio ≠ rate.ratio ∨ task.tokenID ≠ entry.tokenID)
    .originalPriceMismatch blocked
  let t := saleTargets env db mode p task bc entry.id
  -- a lone token submission does not prove that settlement finished
  let blocked := blockIf (task.status = .success ∧ ¬ p.old.perCallBilling ∧
    p.old.pricingMode = .tokens ∧ lifecycle.length = 1 ∧ task.quota = t.oldSubmission)
    .incompleteTaskRange blocked
  let walk := saleWalk t (task.status = .success) entry.id true 0 0 blocked lifecycle
  let blocked := walk.2.2
  let originalFinal := (lifecycle.map BillingEntry.quota).sum
  let blocked := blockIf (originalFinal ≠ task.quota) .incompleteTaskRange blocked
  let blocked := blockIf (blocked = none ∧ ((task.status = .failure ∧ originalFinal ≠ 0) ∨
      (task.status = .success ∧ originalFinal ≠ t.oldFinal) ∨ pricingFailed env p task bc))
    .originalPriceMismatch blocked
  let corrected := walk.2.1 - walk.1
  let blocked := blockIf (blocked = none ∧ ((entry.quota ≥ 0 ∧ corrected < 0) ∨ (entry.quota < 0 ∧ corrected > 0)))
    .adjustmentDirectionChanged blocked
  (blocked, corrected)

/-- The row of an entry before its task is looked at. -/
def baseRow (db : DB) (batch : BillingCorrection) (rate : HistoricalRate) (sale : SaleState)
    (entry : BillingEntry) : BillingCorrectionRow where
  batchID := batch.id
  sourceEntryID := entry.id
  modelName := entry.modelName
  postedAt := entry.postedAt
  taskID := rate.taskID
  tokenID := entry.tokenID
  originalGroup := rate.group
  originalRate := rate.ratio
  originalQuota := entry.quota
  effectiveQuota := sale.quota
  correctedQuota := sale.quota
  previousBatchID := claimOf db entry.id
  targetGroup := match batch.mode with
    | .groupRate => batch.targetGroup
    | .modelPricing => sale.group
  targetRate := match batch.mode with
    | .groupRate => batch.targetRate
    | .modelPricing => sale.rate
  effectiveGroup := sale.group
  effectiveRate := sale.rate

/-- The reasons that block a row before its price is compared. -/
def taskBlocked (env : CorrectionEnv) (mode : CorrectionMode) (rate : HistoricalRate) (p : RowPricing)
    (task : Task) (entry : BillingEntry) (effectiveRate : String) : Option Blocked :=
  let blocked := blockIf (task.billingContext.all (fun bc => bc.originModelName ≠ entry.modelName) ∨
    task.group ≠ rate.group ∨ task.billingSource = "subscription" ∨
    (task.status ≠ .success ∧ task.status ≠ .failure)) .unsupportedOrUnfinishedTask none
  let blocked := blockIf (mode = .modelPricing ∧ p.newErr ≠ none) .missingCurrentPricingEvidence blocked
  blockIf (mode = .modelPricing ∧ (env.decodeFloat effectiveRate).isNone) .originalPriceMismatch blocked

/-- The row of an entry whose task is known. -/
def taskRow (env : CorrectionEnv) (db : DB) (batch : BillingCorrection) (target : ℚ)
    (entries : List BillingEntry) (entry : BillingEntry) (rate : HistoricalRate) (sale : SaleState)
    (task : Task) : BillingCorrectionRow :=
  let p := rowPricing env db batch.mode target task entry.id sale.rate
  let blocked := taskBlocked env batch.mode rate p task entry sale.rate
  let correction := match task.billingContext with
    | none => (blocked, sale.quota)
    | some bc => saleCorrection env db batch.mode rate p task bc
        (taskEntries env db batch.userID entries task.taskID) entry blocked
  let corrected := if correction.1 = none then correction.2 else sale.quota
  { baseRow db batch rate sale entry with
    channelID := task.channelID
    blocked := correction.1
    correctedQuota := corrected
    delta := corrected - sale.quota
    targetPricing := some p.new
    sourceSHA256 := some
      { content :=
          { entry := entry, rate := rate, context := task.billingContext, pricing := p.new
            quota := task.quota, status := task.status, channelID := task.channelID
            tokenID := task.tokenID
            corrections := correctionsOf db batch.userID entry.id batch.sourceSequence } } }

/-- One row of the evidence. -/
def correctionRow (env : CorrectionEnv) (db : DB) (batch : BillingCorrection) (target : ℚ)
    (entries : List BillingEntry) (entry : BillingEntry) : Except BillingError BillingCorrectionRow := do
  let rate := historicalRate env db batch.userID entry
  let sale ← checkedSale entry (originalSale env db batch.userID entry)
    (correctionsOf db batch.userID entry.id batch.sourceSequence)
  if (entry.quota ≥ 0 ∧ sale.quota < 0) ∨ (entry.quota < 0 ∧ sale.quota > 0) ∨ entry.quota > maxQuota ∨
      entry.quota < -maxQuota then .error .evidenceIntegrity
  else
    match tasksOf db batch.userID rate.taskID with
    | [task] => .ok (taskRow env db batch target entries entry rate sale task)
    | _ => .ok { baseRow db batch rate sale entry with blocked := some .missingTaskEvidence }

/-! ## Costs: the supplier side of the same rows -/

/-- `CostAccountingSignedRefundVersion` and the versions after it. -/
def signedRefundVersion : ℤ := 2
def legacyTurnoverBasisVersion : ℤ := 3
def originalPriceBasisVersion : ℤ := 4
def correctedBasisVersion : ℤ := 5

/-- The usage log a row's cost was captured with. -/
def costLog (db : DB) (userID : ℤ) (row : BillingCorrectionRow) : Except BillingError (Option ℤ) :=
  match db.entries.rows.find? fun e => e.id = row.sourceEntryID && e.userID = userID with
  | some entry =>
    if entry.sourceLogID > 0 then .ok (some entry.sourceLogID) else search
  | none => search
where
  search : Except BillingError (Option ℤ) :=
    match (usageLogs db userID).filter fun log =>
        log.modelName = row.modelName && log.channelID = row.channelID && log.tokenID = row.tokenID &&
          (if log.type = .refund then -log.quota else log.quota) = row.originalQuota &&
          log.createdAt ≥ row.postedAt - 60 && log.createdAt ≤ row.postedAt + 60 &&
          log.other.any fun metadata => metadata.taskID = row.taskID with
    | [] => .ok none
    | [log] => .ok (some log.id)
    | _ => .error .evidenceIntegrity

/-- The snapshot of a usage log: the first one by id. -/
def costSnapshot (db : DB) (userID : ℤ) (logID : ℤ) : Option CostAccountingSnapshot :=
  (orderBy CostAccountingSnapshot.id (db.snapshots.rows.filter fun snapshot =>
    snapshot.userID = userID && snapshot.sourceLogID = logID &&
      (snapshot.logType = .consume || snapshot.logType = .refund))).head?

/-- The entries of the rows of one task, in ledger order. -/
def costLifecycle (db : DB) (userID : ℤ) (rows : List BillingCorrectionRow) (taskID : String) : List BillingEntry :=
  orderBy BillingEntry.sequence (db.entries.rows.filter fun e => e.userID = userID &&
    rows.any fun row => row.sourceEntryID = e.id && row.taskID = taskID)

/-- Walk a task's entries up to `entryID`: the supplier amounts before and after it. -/
def costWalk (oldSubmission taskQuota : ℤ) (pre final : ℚ) (success : Bool) (entryID : ℤ) :
    ℤ → ℚ → List BillingEntry → Except BillingError (ℚ × ℚ)
  | _, previous, [] => .ok (previous, previous)
  | cumulative, previous, source :: rest =>
    let cumulative := cumulative + source.quota
    match (if cumulative = 0 then some 0 else if cumulative = oldSubmission then some pre
        else if cumulative = taskQuota then some final else none) with
    | none => .error .evidenceIntegrity
    | some state =>
      let current := if rest = [] ∧ success then final else state
      if source.id = entryID then .ok (previous, current)
      else costWalk oldSubmission taskQuota pre final success entryID cumulative current rest

/-- The basis a row's cost is recomputed from. -/
structure CostBasis where
  basis : Option Decimal
  before : Option Decimal
  after : Option Decimal
  version : ℤ

/-- The supplier amount a finished task stands at. -/
def finalCostBasis (env : CorrectionEnv) (pricing : CorrectionPricing) (modelName : String) (task : Task) :
    Except BillingError ℚ :=
  if task.status = .success then billingCorrectionCostBasis env pricing modelName true else .ok 0

/-- The basis of a model-pricing correction: cumulative supplier amounts along the task. -/
def modelPricingBasis (env : CorrectionEnv) (db : DB) (batch : BillingCorrection)
    (rows : List BillingCorrectionRow) (row : BillingCorrectionRow) (task : Task)
    (bc : TaskBillingContext) (pricing : CorrectionPricing) : Except BillingError CostBasis := do
  match (taskPricing task).2 with
  | some e => .error e
  | none => do
    let oldSubmission ← env.pricingQuota (taskPricing task).1 bc.groupRatio false
    let pre ← billingCorrectionCostBasis env pricing row.modelName false
    let final ← finalCostBasis env pricing row.modelName task
    let walk ← costWalk oldSubmission task.quota pre final (task.status = .success) row.sourceEntryID 0 0
      (costLifecycle db batch.userID rows row.taskID)
    .ok {
      basis := some { value := walk.2 - walk.1 }
      before := some { value := walk.1 }
      after := some { value := walk.2 }
      version := correctedBasisVersion }

/-- The basis of a group-rate correction: the one the source has, except that legacy break-even
    evidence is turned back into a list price first. -/
def groupRateBasis (env : CorrectionEnv) (row : BillingCorrectionRow) (snapshot : CostAccountingSnapshot)
    (state : CostAccountingState) : Except BillingError CostBasis :=
  if state.basisVersion < correctedBasisVersion ∧ (snapshot.costDiscount = "" ∨
      snapshot.snapshotVersion < signedRefundVersion ∨
      snapshot.snapshotVersion = legacyTurnoverBasisVersion) then
    match env.parseDecimal row.originalRate with
    | some group =>
      if group > 0 then
        .ok { basis := some { value := row.originalQuota / group }, before := none, after := none
              version := originalPriceBasisVersion }
      else .error .evidenceIntegrity
    | none => .error .evidenceIntegrity
  else .ok { basis := state.basis, before := state.before, after := state.after
             version := state.basisVersion }

/-- The row with its cost blocked. -/
def costBlocked (row : BillingCorrectionRow) (reason : Blocked) : BillingCorrectionRow :=
  { row with costBlocked := some reason, blocked := some reason }

/-- The length of a decimal column. -/
def columnLength (env : CorrectionEnv) (text : Option Decimal) : ℕ := text.elim 0 env.decimalLength

/-- The row with its cost target frozen. -/
def freezeCost (env : CorrectionEnv) (db : DB) (row : BillingCorrectionRow)
    (snapshot : CostAccountingSnapshot) (state : CostAccountingState)
    (channelDiscount discount : String) (b : CostBasis) : Except BillingError BillingCorrectionRow := do
  let target ← costAccountingBasisQuota b.basis b.before b.after discount
  if columnLength env b.basis > 64 ∨ columnLength env b.before > 64 ∨ columnLength env b.after > 64 then
    .ok (costBlocked row .missingCostEvidence)
  else if (snapshot.logType = .consume ∧ target < 0) ∨ (snapshot.logType = .refund ∧ target > 0) then
    .ok (costBlocked row .costDirectionChanged)
  else
    .ok { row with
      targetCost := some
        { version := 1
          snapshotID := snapshot.id
          channelID := row.channelID
          channelDiscount := channelDiscount
          evidenceSHA256 := { content := (snapshot, adjustmentsOf db snapshot.id) }
          latestAdjustmentID := state.latestID
          stateAdjustmentID := state.stateID
          currentQuota := state.quota
          currentBasis := state.basis
          currentBefore := state.before
          currentAfter := state.after
          currentDiscount := state.discount
          currentBasisVersion := state.basisVersion
          targetQuota := target
          targetBasis := b.basis
          targetBefore := b.before
          targetAfter := b.after
          targetDiscount := discount
          targetBasisVersion := b.version }
      costDiscount := discount
      currentCostQuota := some state.quota
      correctedCostQuota := some target
      costDelta := target - state.quota
      costChanged := target - state.quota ≠ 0 || b.basis ≠ state.basis || b.before ≠ state.before ||
        b.after ≠ state.after || discount ≠ state.discount || b.version ≠ state.basisVersion }

/-- The discount of a channel, or `""` for a channel that is gone. -/
def channelDiscountOf (db : DB) (channelID : ℤ) : Except BillingError String :=
  match db.channels.get? channelID with
  | some channel => normalizeCostDiscount channel.costDiscount
  | none => .ok ""

/-- The discount a cost is recomputed with: the channel's, else the one in force. -/
def chosenDiscount (channelDiscount : String) (state : CostAccountingState) : String :=
  if channelDiscount = "" then state.discount else channelDiscount

/-- The cost of a row with a snapshot. -/
def snapshotRow (env : CorrectionEnv) (db : DB) (batch : BillingCorrection)
    (rows : List BillingCorrectionRow) (row : BillingCorrectionRow) (channelDiscount : String)
    (snapshot : CostAccountingSnapshot) : Except BillingError BillingCorrectionRow := do
  if snapshot.userID ≠ batch.userID ∨ snapshot.modelName ≠ row.modelName ∨
      snapshot.channelID ≠ row.channelID ∨ snapshot.revenueQuota ≠ row.originalQuota then
    .error .evidenceIntegrity
  else do
    let state ← effectiveCostAccountingState snapshot (adjustmentsOf db snapshot.id)
    -- without a configured or historical discount the break-even policy stays
    if chosenDiscount channelDiscount state = "" then .ok row
    else
      match batch.mode with
      | .groupRate => do
        let b ← groupRateBasis env row snapshot state
        freezeCost env db row snapshot state channelDiscount (chosenDiscount channelDiscount state) b
      | .modelPricing =>
        match (tasksOf db batch.userID row.taskID).getLast?.bind (fun task =>
            task.billingContext.map fun bc => (task, bc)), row.targetPricing with
        | some (task, bc), some pricing => do
          let b ← modelPricingBasis env db batch rows row task bc pricing
          freezeCost env db row snapshot state channelDiscount (chosenDiscount channelDiscount state) b
        | _, _ => .ok (costBlocked row .missingCostEvidence)

/-- The cost side of one row. -/
def costRow (env : CorrectionEnv) (db : DB) (batch : BillingCorrection)
    (rows : List BillingCorrectionRow) (row : BillingCorrectionRow) :
    Except BillingError BillingCorrectionRow := do
  if row.blocked ≠ none then .ok row
  else do
    let logID ← costLog db batch.userID row
    let channelDiscount ← channelDiscountOf db row.channelID
    match logID.bind (costSnapshot db batch.userID) with
    | none =>
      if channelDiscount ≠ "" ∨ (db.channels.get? row.channelID).isNone then
        .ok (costBlocked row .missingCostEvidence)
      else .ok row
    | some snapshot => snapshotRow env db batch rows row channelDiscount snapshot

/-- `NormalizeCostDiscount` of every channel a row names. -/
def channelsNormalize (db : DB) (rows : List BillingCorrectionRow) : Except BillingError Unit :=
  rows.forM fun row => (channelDiscountOf db row.channelID).map fun _ => ()

/-- The usage logs of all rows are looked up before the first cost is computed. -/
def logsResolve (db : DB) (userID : ℤ) (rows : List BillingCorrectionRow) : Except BillingError Unit :=
  rows.forM fun row => if row.blocked ≠ none then .ok () else (costLog db userID row).map fun _ => ()

/-- `billingCorrectionCostEvidence`. -/
def billingCorrectionCostEvidence (env : CorrectionEnv) (db : DB) (batch : BillingCorrection)
    (rows : List BillingCorrectionRow) : Except BillingError (List BillingCorrectionRow) := do
  channelsNormalize db rows
  logsResolve db batch.userID rows
  rows.mapM (costRow env db batch rows)

/-- The group rate of a batch, as a number. -/
def targetRate (env : CorrectionEnv) (batch : BillingCorrection) : Except BillingError ℚ :=
  match batch.mode with
  | .groupRate => (env.decodeFloat batch.targetRate).elim (.error .correctionBlocked) .ok
  | .modelPricing => .ok 0

/-- `billingCorrectionEvidence`: the rows of a batch, sorted by source entry. -/
def billingCorrectionEvidence (env : CorrectionEnv) (db : DB) (batch : BillingCorrection)
    (startSequence : ℤ) : Except BillingError (List BillingCorrectionRow) := do
  let entries := correctionSources db batch startSequence
  if entries = [] ∨ entries.length > 1000 then .error .correctionBlocked
  else do
    let target ← targetRate env batch
    let rows ← entries.mapM (correctionRow env db batch target entries)
    billingCorrectionCostEvidence env db batch (orderBy BillingCorrectionRow.sourceEntryID rows)

/-! ## Previews -/

/-- `billingCorrectionDigest`. -/
def billingCorrectionDigest (batch : BillingCorrection) (rows : List BillingCorrectionRow) :
    Sha256 CorrectionBody where
  content :=
    { id := batch.id, userID := batch.userID, createdBy := batch.createdBy
      userGroup := batch.userGroup, createdAt := batch.createdAt, expiresAt := batch.expiresAt
      startAt := batch.startAt, endAt := batch.endAt, sequence := batch.sourceSequence
      models := batch.models, group := batch.targetGroup, rate := batch.targetRate
      reason := batch.reason, mode := batch.mode, canApply := batch.canApply
      chargeDelta := batch.chargeDelta, refundDelta := batch.refundDelta, netDelta := batch.netDelta
      currentCostQuota := batch.currentCostQuota, correctedCostQuota := batch.correctedCostQuota
      costDelta := batch.costDelta, rows := rows }

/-- The range of an `int64`, for the cost totals. -/
def maxInt64 : ℤ := 2 ^ 63 - 1

/-- `billingProjectionQuotaTotal`. -/
def billingProjectionQuotaTotal (total delta : ℤ) : Except BillingError ℤ :=
  if (delta > 0 ∧ total > maxInt64 - delta) ∨ (delta < 0 ∧ total < -maxInt64 - 1 - delta) then
    .error .evidenceIntegrity
  else .ok (total + delta)

/-- Add the cost of one row to the totals of a batch. -/
def addCost (batch : BillingCorrection) (row : BillingCorrectionRow) : Except BillingError BillingCorrection :=
  match row.currentCostQuota, row.correctedCostQuota with
  | some current, some corrected => do
    let current ← billingProjectionQuotaTotal (batch.currentCostQuota.getD 0) current
    let corrected ← billingProjectionQuotaTotal (batch.correctedCostQuota.getD 0) corrected
    let delta ← billingProjectionQuotaTotal batch.costDelta row.costDelta
    .ok { batch with
      currentCostQuota := some current, correctedCostQuota := some corrected, costDelta := delta }
  | _, _ => .ok batch

/-- Add the sale of one row: one blocked row blocks the batch. -/
def addSale (batch : BillingCorrection) (row : BillingCorrectionRow) : BillingCorrection :=
  let batch := { batch with canApply := batch.canApply && row.blocked = none }
  if row.originalQuota < 0 then { batch with refundDelta := batch.refundDelta - row.delta }
  else { batch with chargeDelta := batch.chargeDelta + row.delta }

/-- The totals of a batch over its rows. -/
def addRows : BillingCorrection → List BillingCorrectionRow → Except BillingError BillingCorrection
  | batch, [] => .ok batch
  | batch, row :: rows => do
    let costed ← addCost batch row
    addRows (addSale costed row) rows

/-- The batch with its rows and totals. -/
def summarize (batch : BillingCorrection) (rows : List BillingCorrectionRow) :
    Except BillingError BillingCorrection := do
  let totals ← addRows batch rows
  .ok { totals with
    rows := rows
    netDelta := totals.chargeDelta - totals.refundDelta
    canApply := totals.canApply && rows.any fun row => row.delta ≠ 0 || row.costChanged }

structure BillingCorrectionInput where
  userID : ℤ
  startAt : ℤ
  endAt : ℤ
  models : List String
  mode : CorrectionMode
  targetGroup : String
  reason : String

/-- The first instant of tomorrow in Asia/Shanghai. -/
def dayEnd (now : ℤ) : ℤ := ((now + shanghai) / 86400 + 1) * 86400 - shanghai

/-- Today's cutoff is frozen so that later usage cannot join the preview. -/
def previewEnd (now endAt : ℤ) : ℤ := if endAt > now then now else endAt

/-- The batch a preview starts from. -/
def newBatch (now : ℤ) (uuid : String) (input : BillingCorrectionInput) (actorID : ℤ)
    (rate userGroup : String) : BillingCorrection where
  id := uuid
  userID := input.userID
  userGroup := userGroup
  createdBy := actorID
  createdAt := now
  expiresAt := now + 900
  startAt := input.startAt
  endAt := previewEnd now input.endAt
  models := (input.models.map trimSpace).insertionSort (· ≤ ·)
  mode := input.mode
  targetGroup := match input.mode with
    | .groupRate => trimSpace input.targetGroup
    | .modelPricing => ""
  targetRate := match input.mode with
    | .groupRate => rate
    | .modelPricing => ""
  reason := trimSpace input.reason

/-- `tx.Create(batch)` with its rows. -/
def createCorrection (batch : BillingCorrection) : Tx Unit := do
  let db ← get
  rejectIf ((db.corrections.get? batch.id).isSome) .duplicatedKey
  modify (·.putCorrection batch)

/-- `PreviewBillingCorrection`. -/
def previewBillingCorrection (env : CorrectionEnv) (now : ℤ) (uuid : String)
    (input : BillingCorrectionInput) (actorID : ℤ) (rate userGroup : String) :
    Tx BillingCorrection := do
  let batch := newBatch now uuid input actorID rate userGroup
  rejectIf (input.userID ≤ 0 ∨ actorID ≤ 0 ∨ input.startAt ≤ 0 ∨ input.endAt ≤ input.startAt ∨
    input.endAt - input.startAt > 93 * 86400 ∨ input.models = [] ∨ input.models.length > 20 ∨
    batch.reason.utf8ByteSize < 4 ∨ batch.reason.length > 1000 ∨
    (trimSpace input.targetGroup).utf8ByteSize > 50 ∨
    (input.mode = .groupRate ∧ trimSpace input.targetGroup = "")) .correctionBlocked
  rejectIf (input.endAt > now ∧ input.endAt ≠ dayEnd now) .correctionBlocked
  rejectIf (batch.endAt ≤ input.startAt) .correctionBlocked
  rejectIf (input.models.any fun model =>
    trimSpace model = "" || (trimSpace model).utf8ByteSize > 255) .correctionBlocked
  transaction do
    let user ← firstUser input.userID
    rejectIf (user.group ≠ userGroup) .conflict
    let account ← lockBillingAccount input.userID
    rejectIf (account.accountingStartAt ≤ 0 ∨ input.startAt < account.accountingStartAt) .notConfigured
    let batch := { batch with sourceSequence := account.sequence }
    let db ← get
    let rows ← ofExcept (billingCorrectionEvidence env db batch account.startSequence)
    let batch ← ofExcept (summarize batch rows)
    let batch := { batch with sha256 := some (billingCorrectionDigest batch rows) }
    createCorrection batch
    pure batch

end NovaMaas.Billing
