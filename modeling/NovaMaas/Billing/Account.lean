/-
  Account settings and history imports: `SaveBillingAccount` of `model/billing_ledger.go` and
  `model/billing_history_import.go`.

  Besides the ledger calls these are the two operations that touch what an hour row means.  Saving an
  account may move the accounting start, which changes WHICH entries count; an import inserts a
  month of entries together with their hour rows, computed in one pass over the records
  (`importRecord`) instead of one append at a time.

  The audit rows both operations write (`BillingAccountEvent`) are left out: nothing reads them.
-/
import NovaMaas.Billing.Ledger
import NovaMaas.Lib.OrderBy
import NovaMaas.Lib.Text

namespace NovaMaas.Billing

open Txn

/-! ## Months -/

/-- The zone of all billing periods, `Asia/Shanghai` as a fixed offset. -/
def shanghai : ℤ := 8 * 3600

/-- The number of the month, counted from January of year 0. -/
def Month.index (m : Month) : ℕ := 12 * m.year + (m.month - 1)

/-- `BillingMonthBounds`: the first instant of the month … -/
def Month.startAt (m : Month) : ℤ := Civil.monthStart shanghai m.index

/-- … and of the next one. -/
def Month.endAt (m : Month) : ℤ := Civil.monthStart shanghai (m.index + 1)

/-- Effective statements include legacy rows without an active key.  Superseded versions are
    retained as evidence, but cannot block a replacement. -/
def BillingStatement.effective (st : BillingStatement) : Bool :=
  st.status ≠ .void && st.supersededBy = ""

/-! ## Account settings -/

/-- The entries that lock the accounting start. -/
def locksStart (account : BillingAccount) (e : BillingEntry) : Bool :=
  e.userID = account.userID && e.sequence ≥ account.startSequence &&
    e.postedAt ≥ account.accountingStartAt && e.kind ≠ .funding

/-- Move the accounting start, unless it is unchanged. -/
def changeStart (now : ℤ) (account : BillingAccount) (startAt : Option ℤ) : Tx BillingAccount :=
  match startAt with
  | none => pure account
  | some requested =>
    if requested ≠ account.accountingStartAt ∨ account.accountingStartAt = 0 then do
      let start := if requested = 0 then now else requested
      rejectIf (start < 0) .startInvalid
      let db ← get
      rejectIf (db.statements.rows.any fun st => st.userID = account.userID) .startLockedByStatement
      rejectIf (account.accountingStartAt > 0 ∧ db.entries.rows.any (locksStart account))
        .startLockedByEntry
      pure { account with accountingStartAt := start, startSequence := account.sequence + 1 }
    else pure account

/-- `SaveBillingAccount`: the customer profile, and the accounting start on request. -/
def saveBillingAccount (now userID expectedVersion : ℤ) (title taxID : String)
    (startAt : Option ℤ) : Tx BillingAccount := do
  let title := trimSpace title
  let taxID := trimSpace taxID
  rejectIf (title.length > 200 ∨ taxID.utf8ByteSize > 64 ∨
    (title ++ taxID).toList.any fun c => c = '\x00' || c = '\r' || c = '\n') .invalidProfile
  transaction do
    let _ ← firstUser userID
    let account ← lockBillingAccount userID
    rejectIf (account.profileVersion ≠ expectedVersion) .conflict
    let account ← changeStart now account startAt
    let account := { account with
      companyTitle := title, taxID := taxID, profileVersion := account.profileVersion + 1,
      updatedAt := now }
    modify (·.putAccount account)
    pure account

/-! ## History imports -/

/-- Online bootstrap imports are intentionally bounded. -/
def maxBillingHistoryRecords : ℕ := 10000

/-- One historical usage log. -/
structure BillingHistoryRecord where
  id : ℤ
  userID : ℤ
  createdAt : ℤ
  type : LogType
  quota : ℤ
  requestID : String := ""
  modelName : String := ""
  tokenID : ℤ := 0

/-- What the review of a month finds. -/
structure BillingHistoryState where
  entries : ℕ
  hours : ℕ
  pending : ℕ
  activeStatement : String
  periodCovered : Bool

/-- Where the import of a month starts under an account. -/
def historyStart (account : BillingAccount) (month : Month) : ℤ :=
  if account.accountingStartAt > month.startAt then account.accountingStartAt else month.startAt

/-- The same checks run under the account lock at commit, so a concurrent settlement or new draft
    cannot race an otherwise valid preview. -/
def readBillingHistoryState (db : DB) (account : BillingAccount) (month : Month) : BillingHistoryState where
  entries := ((db.entries.rows.filter fun e => e.userID = account.userID &&
    e.postedAt ≥ historyStart account month && e.postedAt < month.endAt &&
    e.sequence ≥ account.startSequence && e.kind ≠ .funding).take 1).length
  hours := (db.hours.rows.filter fun h => h.userID = account.userID &&
    h.hour ≥ hourOf (historyStart account month) && h.hour < month.endAt).length
  pending := (db.operations.rows.filter fun op => op.userID = account.userID &&
    op.state = .reserved && op.createdAt < month.endAt).length
  activeStatement := ((db.statements.rows.filter fun st => st.effective &&
    st.userID = account.userID && st.month = month).head?.elim "" BillingStatement.id)
  periodCovered := account.accountingStartAt > 0 && account.accountingStartAt < month.endAt

/-- What the pass over the records has built so far. -/
structure HistoryTally where
  sequence : ℤ
  entries : List BillingEntry := []
  byHour : Table BillingHour.hour := .empty
  seen : List ℤ := []
  charge : ℤ := 0
  refund : ℤ := 0

/-- The ledger entry of a historical record. -/
def historyEntry (digest : BillingHistoryRecord → String) (batch : BillingHistoryImport)
    (balance sequence : ℤ) (record : BillingHistoryRecord) : BillingEntry where
  eventKey := "history:" ++ digest record
  userID := batch.userID
  sequence := sequence
  postedAt := record.createdAt
  kind := if record.type = .refund then .historyRefund else .historyUsage
  quota := if record.type = .refund then -record.quota else record.quota
  requestID := record.requestID
  modelName := record.modelName
  tokenID := record.tokenID
  actorID := batch.confirmedBy
  importID := batch.id
  sourceLogID := record.id
  balanceAfter := balance
  balanceBasis := "unchanged_at_import"

/-- The hour row after one more record. -/
def BillingHour.addRecord (hour : BillingHour) (sequence : ℤ) (record : BillingHistoryRecord) : BillingHour :=
  { hour with
    charge := if record.type = .refund then hour.charge else hour.charge + record.quota
    refund := if record.type = .refund then hour.refund + record.quota else hour.refund
    count := hour.count + 1
    lastSequence := sequence }

/-- One step of the pass: validate the record, and add its entry and its hour. -/
def importRecord (digest : BillingHistoryRecord → String) (batch : BillingHistoryImport)
    (balance start finish : ℤ) (tally : HistoryTally) (record : BillingHistoryRecord) :
    Except BillingError HistoryTally :=
  if record.id ≤ 0 ∨ record.id ∈ tally.seen ∨ record.userID ≠ batch.userID ∨
      record.createdAt < start ∨ record.createdAt ≥ finish ∨ record.quota < 0 ∨
      record.quota > maxWalletQuota ∨ (record.type ≠ .consume ∧ record.type ≠ .refund) then
    .error .evidenceIntegrity
  else if record.type = .refund ∧ record.quota > maxWalletQuota - tally.refund then
    .error .walletQuotaLimitExceeded
  else if record.type ≠ .refund ∧ record.quota > maxWalletQuota - tally.charge then
    .error .walletQuotaLimitExceeded
  else
    let sequence := tally.sequence + 1
    let slot := hourOf record.createdAt
    let hour := (tally.byHour.get? slot).getD
      { userID := batch.userID, hour := slot, firstSequence := sequence }
    .ok {
      sequence := sequence
      entries := tally.entries ++ [historyEntry digest batch balance sequence record]
      byHour := tally.byHour.put (hour.addRecord sequence record)
      seen := record.id :: tally.seen
      charge := if record.type = .refund then tally.charge else tally.charge + record.quota
      refund := if record.type = .refund then tally.refund + record.quota else tally.refund }

/-- The whole pass. -/
def importRecords (digest : BillingHistoryRecord → String) (batch : BillingHistoryImport)
    (balance start finish : ℤ) :
    HistoryTally → List BillingHistoryRecord → Except BillingError HistoryTally
  | tally, [] => .ok tally
  | tally, record :: records =>
    match importRecord digest batch balance start finish tally record with
    | .ok tally' => importRecords digest batch balance start finish tally' records
    | .error e => .error e

/-- `tx.Create(hour)`. -/
def createHour (hour : BillingHour) : Tx Unit := do
  let db ← get
  rejectIf ((db.hours.get? hour.key).isSome) .duplicatedKey
  modify (·.putHour hour)

/-- `tx.Create(batch)`, unique by id and by customer and month. -/
def createImport (batch : BillingHistoryImport) : Tx Unit := do
  let db ← get
  rejectIf ((db.imports.get? batch.id).isSome ∨
    db.imports.rows.any fun b => b.userID = batch.userID && b.month = batch.month) .duplicatedKey
  modify (·.putImport batch)

/-- Import a reviewed month: every check of the review again, then entries, hours, account and the
    row of the import. -/
def importHistory (digest : BillingHistoryRecord → String) (committedAt : ℤ)
    (batch : BillingHistoryImport) (expected account : BillingAccount) (user : User)
    (records : List BillingHistoryRecord) : Tx BillingHistoryImport := do
  rejectIf (account.userID ≠ expected.userID ∨ account.accountingStartAt ≠ expected.accountingStartAt ∨
    account.profileVersion ≠ expected.profileVersion ∨ account.sequence ≠ expected.sequence ∨
    account.startSequence ≠ expected.startSequence) .conflict
  let db ← get
  let state := readBillingHistoryState db account batch.month
  rejectIf (state.entries ≠ 0 ∨ state.hours ≠ 0 ∨ state.pending ≠ 0 ∨ state.activeStatement ≠ "" ∨
    ¬ state.periodCovered ∨ account.companyTitle = "" ∨ account.taxID = "") .historyBlocked
  let tally ← ofExcept (importRecords digest batch user.quota (historyStart account batch.month)
    batch.month.endAt { sequence := account.sequence } records)
  forEach (fun _ entry => drop (createEntry entry)) () tally.entries
  forEach (fun _ hour => createHour hour) () (orderBy BillingHour.hour tally.byHour.rows)
  modify (·.putAccount { account with
    sequence := tally.sequence, profileVersion := account.profileVersion + 1,
    updatedAt := committedAt })
  let batch := { batch with
    oldStartAt := account.accountingStartAt
    newStartAt := account.accountingStartAt
    fromSequence := account.sequence + 1
    toSequence := tally.sequence
    records := records.length
    chargeQuota := tally.charge
    refundQuota := tally.refund
    confirmedAt := committedAt }
  createImport batch
  pure batch

/-- `ApplyBillingHistoryImport`.  A batch that was already imported is returned as it is stored. -/
def applyBillingHistoryImport (digest : BillingHistoryRecord → String) (now committedAt : ℤ)
    (batch : BillingHistoryImport) (expected : BillingAccount)
    (records : List BillingHistoryRecord) : Tx BillingHistoryImport := do
  rejectIf (records = [] ∨ records.length > maxBillingHistoryRecords ∨ batch.id = "" ∨
    batch.sourceSHA256 = "" ∨ batch.artifactID ≤ 0 ∨ batch.sessionID = "" ∨ batch.note = "")
    .historyBlocked
  rejectIf (now < batch.month.endAt + 86400) .historyBlocked
  transaction do
    let user ← firstUser batch.userID
    let account ← lockBillingAccount batch.userID
    let db ← get
    match db.imports.get? batch.id with
    | some existing => do
      rejectIf (existing.userID ≠ batch.userID ∨ existing.sourceSHA256 ≠ batch.sourceSHA256 ∨
        existing.month ≠ batch.month) .conflict
      pure existing
    | none => importHistory digest committedAt batch expected account user records

end NovaMaas.Billing
