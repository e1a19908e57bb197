/-
  The wallet ledger: `model/billing_ledger.go`.

  Each exported function validates its arguments and then runs one `DB.Transaction`, which locks
  the user row first; here it is a `Tx` whose body sits under `transaction`.  Rows a Go function
  holds in memory and mutates (`user`, `account`, `entry`) are passed and returned.  Readings of the
  clock and fresh identifiers are arguments (`now`, `uuid`).

  The tables are read without soft-deleted rows, as GORM reads them.
-/
import NovaMaas.Billing.Schema

namespace NovaMaas.Billing

open Txn

/-! ## Row access -/

/-- `lockForUpdate(tx).First(&user, id)`. -/
def firstUser (id : ℤ) : Tx User := do
  let db ← get
  require (db.users.get? id) .recordNotFound

/-- `lockForUpdate(tx).Where("id = ? AND user_id = ?", id, userID).First(&op)`. -/
def firstOperation (id : String) (userID : ℤ) : Tx BillingOperation := do
  let db ← get
  let op ← require (db.operations.get? id) .recordNotFound
  rejectIf (op.userID ≠ userID) .recordNotFound
  pure op

/-- Wallet mutations always lock the user before the billing account, which is created on first
    use. -/
def lockBillingAccount (userID : ℤ) : Tx BillingAccount := do
  let db ← get
  match db.accounts.get? userID with
  | some account => pure account
  | none => do
    modify (·.putAccount { userID := userID })
    pure { userID := userID }

/-- `tx.Create(entry)`: the stored entry carries its new id. -/
def createEntry (entry : BillingEntry) : Tx BillingEntry := do
  let db ← get
  let entries ← require (db.entries.create? entry) .duplicatedKey
  modify (·.setEntries entries)
  pure { entry with id := db.entries.nextID }

/-- `tx.Create(op)`. -/
def createOperation (op : BillingOperation) : Tx Unit := do
  let db ← get
  rejectIf ((db.operations.get? op.id).isSome) .duplicatedKey
  modify (·.putOperation op)

/-- The start of the hour of a timestamp, `at / 3600 * 3600` with Go's division. -/
def hourOf (time : ℤ) : ℤ := time.tdiv 3600 * 3600

/-- Insert the hour row unless it exists, then read it. -/
def firstHour (userID hour : ℤ) : Tx BillingHour := do
  let db ← get
  match db.hours.get? (userID, hour) with
  | some row => pure row
  | none => do
    modify (·.putHour { userID := userID, hour := hour })
    pure { userID := userID, hour := hour }

/-! ## The two primitives: append an entry, move the wallet -/

/-- What an entry adds to the charge side of its hour. -/
def BillingEntry.charge (e : BillingEntry) : ℤ := if e.quota < 0 then 0 else e.quota

/-- What an entry adds to the refund side of its hour. -/
def BillingEntry.refunded (e : BillingEntry) : ℤ := if e.quota < 0 then -e.quota else 0

/-- The hour row after one more entry. -/
def BillingHour.add (hour : BillingHour) (entry : BillingEntry) : BillingHour :=
  { hour with
    charge := hour.charge + entry.charge
    refund := hour.refund + entry.refunded
    count := hour.count + 1
    firstSequence := if hour.firstSequence = 0 then entry.sequence else hour.firstSequence
    lastSequence := entry.sequence }

/-- Append one entry under the account's next sequence, and add it to its hour unless it is
    funding or lies before the accounting start. -/
def appendBillingEntry (now : ℤ) (user : User) (entry : BillingEntry) : Tx BillingEntry := do
  let account ← lockBillingAccount user.id
  let sequence := account.sequence + 1
  let entry ← createEntry { entry with
    userID := user.id, sequence := sequence, postedAt := now, balanceAfter := user.quota }
  modify (·.putAccount { account with sequence := sequence })
  if entry.kind = .funding ∨ account.accountingStartAt = 0 ∨
      entry.postedAt < account.accountingStartAt ∨ entry.sequence < account.startSequence then
    pure entry
  else do
    let hour ← firstHour user.id (hourOf entry.postedAt)
    rejectIf (entry.charge > maxWalletQuota - hour.charge ∨
      entry.refunded > maxWalletQuota - hour.refund) .aggregateLimit
    modify (·.putHour (hour.add entry))
    pure entry

/-- Move the wallet by `delta`, within the exact wallet range. -/
def changeBillingWallet (user : User) (delta : ℤ) : Tx User := do
  rejectIf (delta > maxWalletQuota ∨ delta < -maxWalletQuota ∨
    user.quota > maxWalletQuota - delta ∨ user.quota < -maxWalletQuota - delta)
    .walletQuotaLimitExceeded
  let user := { user with quota := user.quota + delta }
  modify (·.putUser user)
  pure user

/-! ## Reservations -/

/-- Reserve `op.reserved` from the wallet. -/
def beginBillingOperation (now : ℤ) (op : BillingOperation) : Tx Unit := do
  rejectIf (op.id = "" ∨ op.reserved < 0 ∨ op.reserved > maxWalletQuota) .invalidReservation
  transaction do
    let user ← firstUser op.userID
    rejectIf (user.quota < op.reserved) .insufficientQuota
    createOperation { op with state := .reserved, createdAt := now, updatedAt := now }
    let _ ← changeBillingWallet user (-op.reserved)
    pure ()

/-- Change the amount of an open reservation to `target`. -/
def resizeBillingReservation (now : ℤ) (id : String) (userID target : ℤ) : Tx Unit := do
  rejectIf (target < 0 ∨ target > maxWalletQuota) .invalidReservation
  transaction do
    let user ← firstUser userID
    let op ← firstOperation id userID
    rejectIf (op.state ≠ .reserved) .conflict
    let _ ← changeBillingWallet user (op.reserved - target)
    modify (·.putOperation { op with reserved := target, updatedAt := now })

/-- The state a finishing call asks for. -/
def finishState (refund : Bool) : OperationState := if refund then .refunded else .settled

/-- The amount a finishing call asks for: a refund always charges `0`. -/
def finishActual (actual : ℤ) (refund : Bool) : ℤ := if refund then 0 else actual

/-- The ledger entry of a settlement. -/
def settleEntry (op : BillingOperation) (actual : ℤ) : BillingEntry where
  eventKey := "settle:" ++ op.id
  kind := .usage
  quota := actual
  walletDelta := -actual
  requestID := op.requestID
  modelName := op.modelName
  tokenID := op.tokenID

/-- A settlement is consumption and is posted; a refund is not. -/
def postSettlement (now : ℤ) (user : User) (op : BillingOperation) (actual : ℤ) (refund : Bool) : Tx Unit :=
  if refund then pure ()
  else do
    let _ ← appendBillingEntry now user (settleEntry op actual)
    pure ()

/-- Settle a reservation at `actual`, or refund it.  Repeating the outcome is a no-op. -/
def finishBillingOperation (now : ℤ) (id : String) (userID actual : ℤ) (refund : Bool) : Tx Unit := do
  rejectIf (actual < 0 ∨ actual > maxWalletQuota) .invalidCharge
  transaction do
    let user ← firstUser userID
    let op ← firstOperation id userID
    let state := finishState refund
    let actual := finishActual actual refund
    if op.state = state ∧ op.actual = actual then pure ()
    else do
      rejectIf (op.state ≠ .reserved) .conflict
      let user ← changeBillingWallet user (op.reserved - actual)
      postSettlement now user op actual refund
      modify (·.putOperation { op with state := state, actual := actual, updatedAt := now })

/-! ## Adjustments -/

/-- The entry an adjustment posts: an override replaces the delta by the distance to the target. -/
def overrideDelta (user : User) (entry : BillingEntry) (override : Option ℤ) : BillingEntry :=
  match override with
  | none => entry
  | some target => { entry with walletDelta := target - user.quota }

/-- Does a stored entry differ from the adjustment that asks for its event key again? -/
def adjustmentConflicts (existing entry : BillingEntry) (override : Option ℤ) : Bool :=
  existing.userID ≠ entry.userID || existing.kind ≠ entry.kind || existing.quota ≠ entry.quota ||
    match override with
    | none => existing.walletDelta ≠ entry.walletDelta
    | some target => existing.balanceAfter ≠ target

/-- Post an adjustment once per event key; `false` when the key was already posted. -/
def postBillingAdjustment (now : ℤ) (entry : BillingEntry) (override : Option ℤ) : Tx Bool := do
  rejectIf (entry.quota > maxWalletQuota ∨ entry.quota < -maxWalletQuota) .walletQuotaLimitExceeded
  rejectIf (entry.kind = .funding ∧ entry.quota ≠ 0) .fundingIsNotConsumption
  rejectIf (entry.kind ≠ .funding ∧ entry.walletDelta ≠ -entry.quota) .adjustmentMismatch
  rejectIf (entry.eventKey = "" ∨ entry.eventKey.utf8ByteSize > 128) .invalidEventKey
  transaction do
    let user ← firstUser entry.userID
    let db ← get
    match db.entries.rows.find? (fun e => e.eventKey = entry.eventKey) with
    | some existing => do
      rejectIf (adjustmentConflicts existing entry override) .conflict
      pure false
    | none => do
      let entry := overrideDelta user entry override
      let user ← changeBillingWallet user entry.walletDelta
      let _ ← appendBillingEntry now user entry
      pure true

/-- The ledger entry of a task adjustment. -/
def taskEntry (uuid modelName : String) (task : Task) (delta : ℤ) : BillingEntry where
  eventKey := "task:" ++ uuid
  userID := task.userID
  kind := .taskAdjustment
  quota := delta
  walletDelta := -delta
  requestID := task.taskID
  modelName := modelName
  tokenID := task.tokenID

/-- Commit the task's refund or settlement marker and the money in one transaction, so a stale
    poller cannot refund a task twice. -/
def adjustBillingTaskQuota (now : ℤ) (uuid : String) (task : Task) (target : ℤ) (modelName : String) : Tx Bool := do
  rejectIf (target < 0 ∨ target > maxWalletQuota) .invalidTaskCharge
  transaction do
    let user ← firstUser task.userID
    let db ← get
    let current ← require (db.tasks.get? task.id) .recordNotFound
    rejectIf (current.userID ≠ task.userID) .recordNotFound
    if current.quota = target then pure false
    else do
      rejectIf (current.quota ≠ task.quota) .conflict
      let delta := target - current.quota
      let user ← changeBillingWallet user (-delta)
      let _ ← appendBillingEntry now user (taskEntry uuid modelName task delta)
      modify (·.putTask { current with quota := target })
      pure true

/-- The ledger entry of a Midjourney refund. -/
def midjourneyEntry (uuid modelName : String) (task current : Midjourney) : BillingEntry where
  eventKey := "mj-refund:" ++ uuid
  userID := task.userID
  kind := .taskAdjustment
  quota := -current.quota
  walletDelta := current.quota
  requestID := task.mjID
  modelName := modelName
  tokenID := task.tokenID

/-- Refund a Midjourney task in full, once. -/
def refundBillingMidjourney (now : ℤ) (uuid : String) (task : Midjourney) (modelName : String) : Tx Bool :=
  transaction do
    let user ← firstUser task.userID
    let db ← get
    let current ← require (db.midjourneys.get? task.id) .recordNotFound
    rejectIf (current.userID ≠ task.userID) .recordNotFound
    if current.quota = 0 then pure false
    else do
      rejectIf (current.quota ≠ task.quota ∨ current.quota < 0) .conflict
      let user ← changeBillingWallet user current.quota
      let _ ← appendBillingEntry now user (midjourneyEntry uuid modelName task current)
      modify (·.putMidjourney { current with quota := 0 })
      pure true

end NovaMaas.Billing
