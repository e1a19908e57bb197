/-
  The billing database: records, tables and errors of `model/billing_*.go`.

  One Lean structure per Go struct, under the Go field names.  Integers (`int`, `int64`) are `ℤ`:
  every amount passes a range check against `maxWalletQuota` before it is written, so 64-bit
  wrap-around is never reached.  Amounts kept as `float64` or `shopspring/decimal` are `ℚ`.  A
  string column that holds a decimal or JSON is kept as what it holds, `none` for `""`.

  `DB` is the state every transaction of the development runs over.  A unique index of the
  database is a field of the table that carries it (`Table.nodup`, `EntryTable`), so a state that
  violates one cannot be built.

  SHA-256 over canonical JSON is modelled symbolically: `Sha256 α` is the digest of a record of
  type `α`, and two digests agree exactly when the records do.
-/
import NovaMaas.Lib.Civil
import NovaMaas.Lib.Table
import Mathlib.Data.Rat.Defs

open List

namespace NovaMaas.Billing

/-! ## Limits -/

/-- `common.MaxWalletQuota`: the exact-integer range of a JSON number. -/
def maxWalletQuota : ℤ := 2 ^ 53 - 1

/-- `common.MaxQuota`: the range of a single request. -/
def maxQuota : ℤ := 2 ^ 31 - 1

/-! ## Errors -/

/-- Every error the billing functions return, one constructor per error value. -/
inductive BillingError
  | conflict
  | notConfigured
  | insufficientQuota
  | startInvalid
  | walletQuotaLimitExceeded
  | evidenceIntegrity
  | correctionBlocked
  | correctionDependency
  | historyBlocked
  | recordNotFound
  | duplicatedKey
  | invalidReservation
  | invalidCharge
  | fundingIsNotConsumption
  | adjustmentMismatch
  | invalidEventKey
  | invalidTaskCharge
  | invalidProfile
  | startLockedByStatement
  | startLockedByEntry
  | aggregateLimit
  | costDiscountPattern
  | quotaClamp
  deriving DecidableEq

/-! ## Ledger records -/

/-- The columns of a user row that billing reads or writes. -/
structure User where
  id : ℤ
  username : String
  group : String
  quota : ℤ
  usedQuota : ℤ

/-- A per-customer commit-order sequence and cutoff. -/
structure BillingAccount where
  userID : ℤ
  accountingStartAt : ℤ := 0
  startSequence : ℤ := 0
  sequence : ℤ := 0
  companyTitle : String := ""
  taxID : String := ""
  profileVersion : ℤ := 0
  updatedAt : ℤ := 0

inductive OperationState
  | reserved
  | settled
  | refunded
  deriving DecidableEq

/-- A reservation.  It is not consumption until it is settled. -/
structure BillingOperation where
  id : String
  userID : ℤ
  state : OperationState := .reserved
  reserved : ℤ
  actual : ℤ := 0
  requestID : String := ""
  modelName : String := ""
  tokenID : ℤ := 0
  createdAt : ℤ := 0
  updatedAt : ℤ := 0

inductive EntryKind
  | funding
  | usage
  | refund
  | taskAdjustment
  | historyUsage
  | historyRefund
  | rateCorrection
  deriving DecidableEq

/-- An append-only ledger entry: positive quota is consumption, negative is refund.
    Administrative funding has kind `funding` and quota `0`. -/
structure BillingEntry where
  id : ℤ := 0
  eventKey : String
  userID : ℤ := 0
  sequence : ℤ := 0
  postedAt : ℤ := 0
  kind : EntryKind
  quota : ℤ := 0
  walletDelta : ℤ := 0
  balanceAfter : ℤ := 0
  requestID : String := ""
  modelName : String := ""
  tokenID : ℤ := 0
  actorID : ℤ := 0
  importID : String := ""
  sourceLogID : ℤ := 0
  balanceBasis : String := ""
  correctionID : String := ""
  sourceEntryID : ℤ := 0
  billingGroup : String := ""
  billingRate : String := ""
  deriving DecidableEq

/-- The aggregate of one customer hour. -/
structure BillingHour where
  userID : ℤ
  hour : ℤ
  charge : ℤ := 0
  refund : ℤ := 0
  count : ℤ := 0
  firstSequence : ℤ := 0
  lastSequence : ℤ := 0

/-- The key of the unique index `idx_billing_hour`. -/
def BillingHour.key (h : BillingHour) : ℤ × ℤ := (h.userID, h.hour)

/-! ## The entry table and its three unique indexes -/

/-- Entries are unique by `id`, by `event_key`, and by `(user_id, sequence)`. -/
structure EntryTable where
  rows : List BillingEntry
  id_nodup : (rows.map BillingEntry.id).Nodup
  eventKey_nodup : (rows.map BillingEntry.eventKey).Nodup
  sequence_nodup : (rows.map fun e => (e.userID, e.sequence)).Nodup

namespace EntryTable

def empty : EntryTable := ⟨[], nodup_nil, nodup_nil, nodup_nil⟩

/-- The next auto-increment value. -/
def nextID (t : EntryTable) : ℤ := (t.rows.map BillingEntry.id).foldr max 0 + 1

theorem le_foldr_max {x : ℤ} : ∀ {xs : List ℤ}, x ∈ xs → x ≤ xs.foldr max 0
  | y :: ys, h => by
      rw [foldr_cons]
      rcases mem_cons.mp h with h | h
      · rw [h]
        exact Int.le_max_left _ _
      · exact Int.le_trans (le_foldr_max h) (Int.le_max_right _ _)

theorem lt_nextID {t : EntryTable} {e : BillingEntry} (h : e ∈ t.rows) : e.id < t.nextID := by
  have h1 : e.id ≤ (t.rows.map BillingEntry.id).foldr max 0 := le_foldr_max (mem_map_of_mem h)
  unfold nextID
  omega

theorem nodup_map_append {α β : Type} {f : α → β} {xs : List α} {x : α} (h : (xs.map f).Nodup)
    (hx : f x ∉ xs.map f) : ((xs ++ [x]).map f).Nodup := by
  rw [map_append, nodup_append_comm, map_singleton, singleton_append, nodup_cons]
  exact ⟨hx, h⟩

/-- `tx.Create(&entry)`: assign the next id, refuse a duplicate event key or sequence. -/
def create? (t : EntryTable) (e : BillingEntry) : Option EntryTable :=
  if h : e.eventKey ∉ t.rows.map BillingEntry.eventKey ∧
      (e.userID, e.sequence) ∉ t.rows.map (fun e => (e.userID, e.sequence)) then
    some
      { rows := t.rows ++ [{ e with id := t.nextID }]
        id_nodup := by
          refine nodup_map_append t.id_nodup ?_
          intro hmem
          obtain ⟨e', he', hid⟩ := mem_map.mp hmem
          have := lt_nextID he'
          simp only at hid
          omega
        eventKey_nodup := nodup_map_append t.eventKey_nodup h.1
        sequence_nodup := nodup_map_append t.sequence_nodup h.2 }
  else none

theorem create?_some {t t' : EntryTable} {e : BillingEntry} (h : t.create? e = some t') :
    t'.rows = t.rows ++ [{ e with id := t.nextID }] ∧ e.eventKey ∉ t.rows.map BillingEntry.eventKey := by
  unfold create? at h
  split at h
  · rename_i hfresh
    cases h
    exact ⟨rfl, hfresh.1⟩
  · cases h

end EntryTable

/-! ## Tasks, tokens, channels and usage logs -/

inductive TaskStatus
  | notStart
  | submitted
  | queued
  | inProgress
  | failure
  | success
  | unknown
  deriving DecidableEq

/-- The pricing parameters a task was submitted with. -/
structure TaskBillingContext where
  modelPrice : ℚ := 0
  groupRatio : ℚ := 0
  modelRatio : ℚ := 0
  otherRatios : List (String × ℚ) := []
  originModelName : String := ""
  perCallBilling : Bool := false
  costDiscount : String := ""
  deriving DecidableEq

/-- The columns of a task row that billing reads or writes.  `totalTokens` is `usage.total_tokens`
    of the task's result data: `none` when the data is not valid JSON, `0` when it is absent. -/
structure Task where
  id : ℤ
  taskID : String
  userID : ℤ
  group : String := ""
  channelID : ℤ := 0
  quota : ℤ := 0
  status : TaskStatus := .notStart
  tokenID : ℤ := 0
  billingSource : String := ""
  billingContext : Option TaskBillingContext := none
  totalTokens : Option ℤ := some 0

structure Midjourney where
  id : ℤ
  mjID : String := ""
  userID : ℤ
  quota : ℤ := 0
  tokenID : ℤ := 0

structure Token where
  id : ℤ
  userID : ℤ
  name : String := ""
  usedQuota : ℤ := 0
  remainQuota : ℤ := 0
  unlimitedQuota : Bool := false

structure Channel where
  id : ℤ
  usedQuota : ℤ := 0
  costDiscount : String := ""

inductive LogType
  | consume
  | refund
  | billingCorrection
  | other
  deriving DecidableEq

/-- The part of a log's JSON metadata that billing reads; `groupRatio` is `none` unless it is a
    decimal. -/
structure LogMetadata where
  taskID : String := ""
  groupRatio : Option ℚ := none
  deriving DecidableEq

/-- A usage log.  `other` is `none` when the metadata column is not valid JSON. -/
structure Log where
  id : ℤ
  userID : ℤ
  type : LogType
  modelName : String := ""
  quota : ℤ := 0
  group : String := ""
  requestID : String := ""
  tokenID : ℤ := 0
  channelID : ℤ := 0
  createdAt : ℤ := 0
  other : Option LogMetadata := none
  username : String := ""
  tokenName : String := ""
  upstreamRequestID : String := ""
  deriving DecidableEq

/-! ## Digests -/

/-- The SHA-256 digest of a record: injective, and nothing else is known of it. -/
structure Sha256 (α : Type) where
  content : α
  deriving DecidableEq

/-! ## Supplier cost evidence -/

/-- The text of a decimal: its value, and how many zeros stand after the shortest form
    (`"100.5"` has none, `"100.500000"` five), so that equal texts are equal structures. -/
structure Decimal where
  value : ℚ
  padding : ℕ := 0
  deriving DecidableEq

/-- Immutable accounting evidence captured alongside a usage log. -/
structure CostAccountingSnapshot where
  id : ℤ := 0
  eventKey : String
  sourceLogID : ℤ := 0
  requestID : String := ""
  userID : ℤ
  username : String := ""
  tokenName : String := ""
  modelName : String := ""
  channelID : ℤ := 0
  groupName : String := ""
  logType : LogType
  occurredAt : ℤ := 0
  revenueQuota : ℤ := 0
  costBasisQuota : Option Decimal := none
  costDiscount : String := ""
  costQuota : ℤ := 0
  snapshotVersion : ℤ := 0
  source : String := ""
  batchID : String := ""
  createdAt : ℤ := 0
  upstreamRequestID : String := ""
  deriving DecidableEq

inductive AdjustmentAction
  | plain
  | apply
  | reverse
  deriving DecidableEq

/-- An append-only change of a snapshot's cost. -/
structure CostAccountingAdjustment where
  id : ℤ := 0
  eventKey : Option String := none
  snapshotID : ℤ
  deltaCostQuota : ℤ := 0
  newCostQuota : ℤ := 0
  costDiscount : String := ""
  costBasisQuota : Option Decimal := none
  costBasisBefore : Option Decimal := none
  costBasisAfter : Option Decimal := none
  basisVersion : ℤ := 0
  correctionID : String := ""
  action : AdjustmentAction := .plain
  previousAdjustmentID : ℤ := 0
  reason : String := ""
  actorID : ℤ := 0
  batchID : String := ""
  createdAt : ℤ := 0
  deriving DecidableEq

/-- What a cost correction froze: the state it found and the state it sets. -/
structure BillingCorrectionCost where
  version : ℤ
  snapshotID : ℤ
  channelID : ℤ
  channelDiscount : String
  evidenceSHA256 : Sha256 (CostAccountingSnapshot × List CostAccountingAdjustment)
  latestAdjustmentID : ℤ
  stateAdjustmentID : ℤ
  currentQuota : ℤ
  currentBasis : Option Decimal
  currentBefore : Option Decimal
  currentAfter : Option Decimal
  currentDiscount : String
  currentBasisVersion : ℤ
  targetQuota : ℤ
  targetBasis : Option Decimal
  targetBefore : Option Decimal
  targetAfter : Option Decimal
  targetDiscount : String
  targetBasisVersion : ℤ
  deriving DecidableEq

/-! ## Corrections -/

inductive CorrectionMode
  | groupRate
  | modelPricing
  deriving DecidableEq

inductive PricingMode
  | perCall
  | tokens
  deriving DecidableEq

/-- The pricing parameters frozen with every preview row (`billingCorrectionPricing`). -/
structure CorrectionPricing where
  pricingMode : PricingMode := .perCall
  modelPrice : ℚ := 0
  modelRatio : ℚ := 0
  otherRatios : List (String × ℚ) := []
  perCallBilling : Bool := false
  totalTokens : ℤ := 0
  resolution : String := ""
  hasVideo : Option Bool := none
  requestedResolution : String := ""
  resolutionSource : String := ""
  deriving DecidableEq

/-- `billingHistoricalRate`: group, group ratio and task of a ledger entry. -/
structure HistoricalRate where
  group : String := ""
  ratio : String := ""
  taskID : String := ""
  deriving DecidableEq

/-- The evidence hashed into a row's `SourceSHA256`. -/
structure SourceEvidence where
  entry : BillingEntry
  rate : HistoricalRate
  context : Option TaskBillingContext
  pricing : CorrectionPricing
  quota : ℤ
  status : TaskStatus
  channelID : ℤ
  tokenID : ℤ
  corrections : List BillingEntry
  deriving DecidableEq

/-- Why a row cannot be corrected. -/
inductive Blocked
  | missingTaskEvidence
  | unsupportedOrUnfinishedTask
  | missingCurrentPricingEvidence
  | originalPriceMismatch
  | incompleteTaskRange
  | adjustmentDirectionChanged
  | missingCostEvidence
  | costDirectionChanged
  deriving DecidableEq

/-- One corrected source entry of a batch. -/
structure BillingCorrectionRow where
  batchID : String
  sourceEntryID : ℤ
  modelName : String := ""
  postedAt : ℤ := 0
  taskID : String := ""
  tokenID : ℤ := 0
  channelID : ℤ := 0
  originalGroup : String := ""
  originalRate : String := ""
  originalQuota : ℤ := 0
  correctedQuota : ℤ := 0
  delta : ℤ := 0
  sourceSHA256 : Option (Sha256 SourceEvidence) := none
  blocked : Option Blocked := none
  effectiveQuota : ℤ := 0
  previousBatchID : String := ""
  targetGroup : String := ""
  targetRate : String := ""
  targetPricing : Option CorrectionPricing := none
  effectiveGroup : String := ""
  effectiveRate : String := ""
  targetCost : Option BillingCorrectionCost := none
  currentCostQuota : Option ℤ := none
  correctedCostQuota : Option ℤ := none
  costDelta : ℤ := 0
  costDiscount : String := ""
  costBlocked : Option Blocked := none
  costChanged : Bool := false
  deriving DecidableEq

inductive CorrectionStatus
  | preview
  | applied
  | reversed
  deriving DecidableEq

/-- The record `billingCorrectionDigest` hashes. -/
structure CorrectionBody where
  id : String
  userID : ℤ
  createdBy : ℤ
  userGroup : String
  createdAt : ℤ
  expiresAt : ℤ
  startAt : ℤ
  endAt : ℤ
  sequence : ℤ
  models : List String
  group : String
  rate : String
  reason : String
  mode : CorrectionMode
  canApply : Bool
  chargeDelta : ℤ
  refundDelta : ℤ
  netDelta : ℤ
  currentCostQuota : Option ℤ
  correctedCostQuota : Option ℤ
  costDelta : ℤ
  rows : List BillingCorrectionRow
  deriving DecidableEq

/-- A preview freezes both the correction definition and its original evidence.  `rows` are the
    batch's rows of `billing_correction_rows`, in source order. -/
structure BillingCorrection where
  id : String
  userID : ℤ
  userGroup : String := ""
  createdBy : ℤ := 0
  createdAt : ℤ := 0
  expiresAt : ℤ := 0
  startAt : ℤ := 0
  endAt : ℤ := 0
  models : List String := []
  mode : CorrectionMode := .groupRate
  targetGroup : String := ""
  targetRate : String := ""
  reason : String := ""
  status : CorrectionStatus := .preview
  sourceSequence : ℤ := 0
  canApply : Bool := true
  chargeDelta : ℤ := 0
  refundDelta : ℤ := 0
  netDelta : ℤ := 0
  currentCostQuota : Option ℤ := none
  correctedCostQuota : Option ℤ := none
  costDelta : ℤ := 0
  sha256 : Option (Sha256 CorrectionBody) := none
  appliedAt : ℤ := 0
  reversedAt : ℤ := 0
  reversalReason : String := ""
  rows : List BillingCorrectionRow := []

/-- The batch that currently owns a source entry, `""` for none. -/
structure BillingCorrectionClaim where
  sourceEntryID : ℤ
  batchID : String := ""

/-! ## Statements -/

/-- A billing month `YYYY-MM`. -/
structure Month where
  year : ℕ
  month : ℕ
  year_le : year ≤ 9999
  one_le : 1 ≤ month
  le_twelve : month ≤ 12
  deriving DecidableEq

inductive StatementStatus
  | preparing
  | draft
  | issued
  | disputed
  | confirmed
  | void
  | failed
  deriving DecidableEq

/-- A statement row, of what keeps an account from being changed. -/
structure BillingStatement where
  id : String
  userID : ℤ
  month : Month
  status : StatementStatus := .preparing
  supersededBy : String := ""

/-- A completed import of historical usage, unique for the customer and month. -/
structure BillingHistoryImport where
  id : String
  userID : ℤ
  month : Month
  sourceSHA256 : String
  artifactID : ℤ := 0
  records : ℤ := 0
  chargeQuota : ℤ := 0
  refundQuota : ℤ := 0
  fromSequence : ℤ := 0
  toSequence : ℤ := 0
  oldStartAt : ℤ := 0
  newStartAt : ℤ := 0
  confirmedBy : ℤ := 0
  confirmedAt : ℤ := 0
  sessionID : String := ""
  note : String := ""

/-! ## The database -/

/-- The tables of the billing subsystem. -/
structure DB where
  users : Table User.id
  accounts : Table BillingAccount.userID
  operations : Table BillingOperation.id
  entries : EntryTable
  hours : Table BillingHour.key
  tasks : Table Task.id
  midjourneys : Table Midjourney.id
  tokens : Table Token.id
  channels : Table Channel.id
  logs : Table Log.id
  snapshots : Table CostAccountingSnapshot.id
  adjustments : Table CostAccountingAdjustment.id
  corrections : Table BillingCorrection.id
  claims : Table BillingCorrectionClaim.sourceEntryID
  statements : Table BillingStatement.id
  imports : Table BillingHistoryImport.id

/-- A database with no rows. -/
def DB.empty : DB where
  users := .empty
  accounts := .empty
  operations := .empty
  entries := .empty
  hours := .empty
  tasks := .empty
  midjourneys := .empty
  tokens := .empty
  channels := .empty
  logs := .empty
  snapshots := .empty
  adjustments := .empty
  corrections := .empty
  claims := .empty
  statements := .empty
  imports := .empty

namespace DB

/-! Writes, one per table. -/

def putUser (db : DB) (r : User) : DB := { db with users := db.users.put r }
def putAccount (db : DB) (r : BillingAccount) : DB := { db with accounts := db.accounts.put r }
def putOperation (db : DB) (r : BillingOperation) : DB :=
  { db with operations := db.operations.put r }
def putHour (db : DB) (r : BillingHour) : DB := { db with hours := db.hours.put r }
def putTask (db : DB) (r : Task) : DB := { db with tasks := db.tasks.put r }
def putMidjourney (db : DB) (r : Midjourney) : DB := { db with midjourneys := db.midjourneys.put r }
def putToken (db : DB) (r : Token) : DB := { db with tokens := db.tokens.put r }
def putChannel (db : DB) (r : Channel) : DB := { db with channels := db.channels.put r }
def putSnapshot (db : DB) (r : CostAccountingSnapshot) : DB :=
  { db with snapshots := db.snapshots.put r }
def putAdjustment (db : DB) (r : CostAccountingAdjustment) : DB :=
  { db with adjustments := db.adjustments.put r }
def putCorrection (db : DB) (r : BillingCorrection) : DB :=
  { db with corrections := db.corrections.put r }
def putClaim (db : DB) (r : BillingCorrectionClaim) : DB := { db with claims := db.claims.put r }
def putImport (db : DB) (r : BillingHistoryImport) : DB := { db with imports := db.imports.put r }
def setEntries (db : DB) (t : EntryTable) : DB := { db with entries := t }

/-- `db` with the three tables an append writes taken from `db'`. -/
def withLedgerOf (db db' : DB) : DB :=
  { db with accounts := db'.accounts, entries := db'.entries, hours := db'.hours }

/-- `db` with the six tables the rows of a correction write taken from `db'`. -/
def withPostingOf (db db' : DB) : DB :=
  { db with
    users := db'.users, accounts := db'.accounts, entries := db'.entries, hours := db'.hours
    claims := db'.claims, snapshots := db'.snapshots }

/-- `db` with the ten tables a correction writes taken from `db'`. -/
def withCorrectionOf (db db' : DB) : DB :=
  { db.withPostingOf db' with
    tokens := db'.tokens, channels := db'.channels, adjustments := db'.adjustments
    corrections := db'.corrections }

end DB

/-- A transaction over the billing database. -/
abbrev Tx (α : Type) : Type := Txn DB BillingError α

end NovaMaas.Billing
