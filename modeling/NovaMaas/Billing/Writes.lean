/-
  Which tables the billing calls can write at all.

  `LedgerWrites R` says that every single write of the ledger, account and import code leads to an
  `R`-related database; `CorrectionWrites R` adds the writes of the corrections.  For a preorder `R`
  the calls then relate their states too, by the syntax of their bodies (`Txn.Keeps`).

  So a fact such as "no call removes an account" or "the ledger calls do not touch a claim" costs one
  line per kind of write, and none per call.
-/
import NovaMaas.Billing.Conservation
import NovaMaas.Billing.CorrectionApply

namespace NovaMaas.Billing

open Txn

/-! ## The writes -/

/-- `R` is closed under the writes of the ledger, the account settings and the imports. -/
structure LedgerWrites (R : DB → DB → Prop) : Prop where
  user : ∀ s r, R s (s.putUser r)
  account : ∀ s r, R s (s.putAccount r)
  operation : ∀ s r, R s (s.putOperation r)
  entry : ∀ s e t, s.entries.create? e = some t → R s (s.setEntries t)
  hour : ∀ s r, R s (s.putHour r)
  task : ∀ s r, R s (s.putTask r)
  midjourney : ∀ s r, R s (s.putMidjourney r)
  history : ∀ s r, R s (s.putImport r)

/-- `R` is closed under the writes of the corrections too. -/
structure CorrectionWrites (R : DB → DB → Prop) : Prop extends LedgerWrites R where
  claim : ∀ s r, R s (s.putClaim r)
  adjustment : ∀ s r, (∀ a ∈ s.adjustments.rows, a.id < r.id) → R s (s.putAdjustment r)
  snapshot : ∀ s r, (∀ x ∈ s.snapshots.rows, x.id < r.id) → R s (s.putSnapshot r)
  token : ∀ s r, R s (s.putToken r)
  channel : ∀ s r, R s (s.putChannel r)
  correction : ∀ s r, R s (s.putCorrection r)

/-! ## The ledger -/

section Ledger

variable {R : DB → DB → Prop}

/-- An entry whose key is taken is refused before it is written. -/
theorem keeps_createEntry (w : LedgerWrites R) (entry : BillingEntry) : Keeps R (createEntry entry) := by
  refine keeps_get_bind fun s => ?_
  rw [wp_bind, wp_require]
  intro t ht
  rw [wp_bind, wp_modify, wp_pure]
  exact w.entry s entry t ht

variable [IsPreorder DB R]

theorem keeps_firstUser (id : ℤ) : Keeps R (firstUser id) :=
  keeps_bind keeps_get fun _ => keeps_require _ _

theorem keeps_firstOperation (id : String) (userID : ℤ) : Keeps R (firstOperation id userID) := by
  refine keeps_bind keeps_get fun db => ?_
  refine keeps_require_bind fun op => ?_
  exact keeps_rejectIf_bind (keeps_pure op)

variable (w : LedgerWrites R)

include w

variable (now userID : ℤ) (user : User) (op : BillingOperation)

/-- The first lock of a user writes the account. -/
theorem keeps_lockBillingAccount : Keeps R (lockBillingAccount userID) := by
  refine keeps_bind keeps_get fun db => ?_
  cases db.accounts.get? userID with
  | some account => exact keeps_pure account
  | none => exact keeps_bind (keeps_modify fun s => w.account s _) fun _ => keeps_pure _

theorem keeps_createOperation : Keeps R (createOperation op) := by
  refine keeps_bind keeps_get fun db => ?_
  exact keeps_rejectIf_bind (keeps_modify fun s => w.operation s _)

theorem keeps_firstHour (hour : ℤ) : Keeps R (firstHour userID hour) := by
  refine keeps_bind keeps_get fun db => ?_
  cases db.hours.get? (userID, hour) with
  | some row => exact keeps_pure row
  | none => exact keeps_bind (keeps_modify fun s => w.hour s _) fun _ => keeps_pure _

/-- An entry comes with the sequence of its account and with its hour. -/
theorem keeps_appendBillingEntry (entry : BillingEntry) : Keeps R (appendBillingEntry now user entry) := by
  refine keeps_bind (keeps_lockBillingAccount w user.id) fun account => ?_
  refine keeps_bind (keeps_createEntry w _) fun entry => ?_
  refine keeps_bind (keeps_modify fun s => w.account s _) fun _ => ?_
  refine keeps_ite (keeps_pure entry) ?_
  refine keeps_bind (keeps_firstHour w user.id _) fun hour => ?_
  refine keeps_rejectIf_bind ?_
  exact keeps_bind (keeps_modify fun s => w.hour s _) fun _ => keeps_pure entry

theorem keeps_changeBillingWallet (delta : ℤ) : Keeps R (changeBillingWallet user delta) := by
  refine keeps_rejectIf_bind ?_
  exact keeps_bind (keeps_modify fun s => w.user s _) fun _ => keeps_pure _

theorem keeps_postSettlement (actual : ℤ) (refund : Bool) : Keeps R (postSettlement now user op actual refund) :=
  keeps_ite (keeps_pure ())
    (keeps_bind (keeps_appendBillingEntry w now user _) fun _ => keeps_pure ())

/-- The six calls of the ledger write nothing else. -/
theorem keeps_ledgerCall (c : LedgerCall) : Keeps R c.exec := by
  cases c with
  | begin =>
    refine keeps_rejectIf_bind (keeps_transaction ?_)
    refine keeps_bind (keeps_firstUser _) fun user => ?_
    refine keeps_rejectIf_bind ?_
    refine keeps_bind (keeps_createOperation w _) fun _ => ?_
    exact keeps_bind (keeps_changeBillingWallet w user _) fun _ => keeps_pure ()
  | resize =>
    refine keeps_rejectIf_bind (keeps_transaction ?_)
    refine keeps_bind (keeps_firstUser _) fun user => ?_
    refine keeps_bind (keeps_firstOperation _ _) fun op => ?_
    refine keeps_rejectIf_bind ?_
    refine keeps_bind (keeps_changeBillingWallet w user _) fun _ => ?_
    exact keeps_modify fun s => w.operation s _
  | finish now _ _ _ refund =>
    refine keeps_rejectIf_bind (keeps_transaction ?_)
    refine keeps_bind (keeps_firstUser _) fun user => ?_
    refine keeps_bind (keeps_firstOperation _ _) fun op => ?_
    refine keeps_ite (keeps_pure ()) ?_
    refine keeps_rejectIf_bind ?_
    refine keeps_bind (keeps_changeBillingWallet w user _) fun user => ?_
    refine keeps_bind (keeps_postSettlement w now user op _ refund) fun _ => ?_
    exact keeps_modify fun s => w.operation s _
  | adjust now entry =>
    refine keeps_drop ?_
    refine keeps_rejectIf_bind (keeps_rejectIf_bind (keeps_rejectIf_bind (keeps_rejectIf_bind ?_)))
    refine keeps_transaction (keeps_bind (keeps_firstUser _) fun user => ?_)
    refine keeps_bind keeps_get fun db => ?_
    cases db.entries.rows.find? (fun e => e.eventKey = entry.eventKey) with
    | some => exact keeps_rejectIf_bind (keeps_pure false)
    | none =>
      refine keeps_bind (keeps_changeBillingWallet w user _) fun user => ?_
      exact keeps_bind (keeps_appendBillingEntry w now user _) fun _ => keeps_pure true
  | taskQuota now _ task =>
    refine keeps_drop (keeps_rejectIf_bind (keeps_transaction ?_))
    refine keeps_bind (keeps_firstUser _) fun user => ?_
    refine keeps_bind keeps_get fun db => ?_
    refine keeps_require_bind fun current => ?_
    refine keeps_rejectIf_bind ?_
    refine keeps_ite (keeps_pure false) ?_
    refine keeps_rejectIf_bind ?_
    refine keeps_bind (keeps_changeBillingWallet w user _) fun user => ?_
    refine keeps_bind (keeps_appendBillingEntry w now user _) fun _ => ?_
    exact keeps_bind (keeps_modify fun s => w.task s _) fun _ => keeps_pure true
  | midjourney now =>
    refine keeps_drop (keeps_transaction ?_)
    refine keeps_bind (keeps_firstUser _) fun user => ?_
    refine keeps_bind keeps_get fun db => ?_
    refine keeps_require_bind fun current => ?_
    refine keeps_rejectIf_bind ?_
    refine keeps_ite (keeps_pure false) ?_
    refine keeps_rejectIf_bind ?_
    refine keeps_bind (keeps_changeBillingWallet w user _) fun user => ?_
    refine keeps_bind (keeps_appendBillingEntry w now user _) fun _ => ?_
    exact keeps_bind (keeps_modify fun s => w.midjourney s _) fun _ => keeps_pure true

/-! ## Accounts and imports -/

omit w in
theorem keeps_changeStart (account : BillingAccount) (startAt : Option ℤ) :
    Keeps R (changeStart now account startAt) := by
  cases startAt with
  | none => exact keeps_pure account
  | some =>
    refine keeps_ite ?_ (keeps_pure account)
    refine keeps_rejectIf_bind (keeps_bind keeps_get fun db => ?_)
    exact keeps_rejectIf_bind (keeps_rejectIf_bind (keeps_pure _))

/-- A save rewrites the row of the account; a new start writes nothing else. -/
theorem keeps_saveBillingAccount (expectedVersion : ℤ) (title taxID : String) (startAt : Option ℤ) :
    Keeps R (saveBillingAccount now userID expectedVersion title taxID startAt) := by
  refine keeps_rejectIf_bind (keeps_transaction ?_)
  refine keeps_bind (keeps_firstUser _) fun _ => ?_
  refine keeps_bind (keeps_lockBillingAccount w _) fun account => ?_
  refine keeps_rejectIf_bind ?_
  refine keeps_bind (keeps_changeStart now account startAt) fun account => ?_
  exact keeps_bind (keeps_modify fun s => w.account s _) fun _ => keeps_pure _

/-- An import writes its entries and hours row by row. -/
theorem keeps_applyBillingHistoryImport (digest : BillingHistoryRecord → String) (now committedAt : ℤ)
    (batch : BillingHistoryImport) (expected : BillingAccount) (records : List BillingHistoryRecord) :
    Keeps R (applyBillingHistoryImport digest now committedAt batch expected records) := by
  refine keeps_rejectIf_bind (keeps_rejectIf_bind (keeps_transaction ?_))
  refine keeps_bind (keeps_firstUser _) fun user => ?_
  refine keeps_bind (keeps_lockBillingAccount w _) fun account => ?_
  refine keeps_bind keeps_get fun db => ?_
  cases db.imports.get? batch.id with
  | some existing => exact keeps_rejectIf_bind (keeps_pure existing)
  | none =>
    refine keeps_rejectIf_bind (keeps_bind keeps_get fun db => ?_)
    refine keeps_rejectIf_bind (keeps_ofExcept_bind fun tally => ?_)
    refine keeps_bind (keeps_forEach (fun _ entry => keeps_drop (keeps_createEntry w entry)) _ _)
      fun _ => ?_
    refine keeps_bind (keeps_forEach (fun _ hour => ?_) _ _) fun _ => ?_
    · exact keeps_bind keeps_get fun _ => keeps_rejectIf_bind (keeps_modify fun s => w.hour s _)
    refine keeps_bind (keeps_modify fun s => w.account s _) fun _ => ?_
    refine keeps_bind (keeps_bind keeps_get fun _ => ?_) fun _ => keeps_pure _
    exact keeps_rejectIf_bind (keeps_modify fun s => w.history s _)

end Ledger

/-! ## Corrections -/

section Correction

variable {R : DB → DB → Prop}

/-- A snapshot gets an id behind all others. -/
theorem keeps_createSnapshot (w : CorrectionWrites R) (snapshot : CostAccountingSnapshot) :
    Keeps R (createSnapshot snapshot) := by
  refine keeps_get_bind fun s => ?_
  rw [wp_bind, wp_rejectIf]
  intro _
  rw [wp_modify]
  refine w.snapshot s _ ?_
  intro x hx
  exact lt_nextRowID (List.mem_map_of_mem hx)

/-- So does an adjustment. -/
theorem keeps_createAdjustment (w : CorrectionWrites R) (adjustment : CostAccountingAdjustment) :
    Keeps R (createAdjustment adjustment) := by
  refine keeps_get_bind fun s => ?_
  rw [wp_bind, wp_rejectIf]
  intro _
  rw [wp_modify]
  refine w.adjustment s _ ?_
  intro a ha
  exact lt_nextRowID (List.mem_map_of_mem ha)

variable [IsPreorder DB R] (w : CorrectionWrites R)

include w

variable (now : ℤ) (env : CorrectionEnv) (clock : ℤ → ℤ) (batch : BillingCorrection)

theorem keeps_billingCorrectionApplyCosts (actorID : ℤ) (reverse : Bool) (reason : String) :
    Keeps R (billingCorrectionApplyCosts now batch actorID reverse reason) := by
  refine keeps_rejectIf_bind (keeps_drop (keeps_forEach (fun last target => ?_) _ _))
  refine keeps_rejectIf_bind (keeps_bind keeps_get fun db => ?_)
  refine keeps_require_bind fun snapshot => ?_
  refine keeps_rejectIf_bind (keeps_ofExcept_bind fun state => ?_)
  refine keeps_ofExcept_bind fun _ => ?_
  exact keeps_bind (keeps_createAdjustment w _) fun _ => keeps_pure _

theorem keeps_recordRevenue (reverse : Bool) (row : BillingCorrectionRow)
    (p : Posting) (user : User) (entry : BillingEntry) :
    Keeps R (recordRevenue batch reverse row p user entry) := by
  refine keeps_ite (keeps_pure _) ?_
  refine keeps_bind (keeps_ite ?_ (keeps_pure "")) fun name => ?_
  · refine keeps_bind keeps_get fun db => ?_
    exact keeps_require_bind fun token => keeps_rejectIf_bind (keeps_pure token.name)
  · exact keeps_bind (keeps_createSnapshot w _) fun _ => keeps_pure _

/-- A row of a correction writes its claim, the wallet, an entry and the snapshot of its revenue. -/
theorem keeps_applyRow (actorID : ℤ) (reverse : Bool) (p : Posting) (row : BillingCorrectionRow) :
    Keeps R (applyRow env clock batch actorID reverse p row) := by
  refine keeps_bind ?_ fun _ => ?_
  · refine keeps_rejectIf_bind (keeps_bind keeps_get fun db => ?_)
    exact keeps_rejectIf_bind (keeps_rejectIf_bind (keeps_modify fun s => w.claim s _))
  refine keeps_bind (keeps_changeBillingWallet w.toLedgerWrites _ _) fun user => ?_
  refine keeps_bind (keeps_appendBillingEntry w.toLedgerWrites _ user _) fun entry => ?_
  exact keeps_recordRevenue w batch reverse row p user entry

theorem keeps_postCorrection (user : User)
    (request : CorrectionRequest) : Keeps R (postCorrection env batch user request) := by
  refine keeps_bind (keeps_billingCorrectionApplyCosts w _ _ _ _ _) fun _ => ?_
  refine keeps_bind (keeps_forEach (fun p row => keeps_applyRow w env _ _ _ _ p row) _ _)
    fun posting => ?_
  refine keeps_bind (keeps_modify fun s => w.user s _) fun _ => ?_
  refine keeps_bind (keeps_forEach (fun _ id => ?_) _ _) fun _ => ?_
  · refine keeps_bind keeps_get fun db => keeps_require_bind fun token => ?_
    exact keeps_rejectIf_bind (keeps_rejectIf_bind (keeps_modify fun s => w.token s _))
  refine keeps_bind (keeps_forEach (fun _ id => ?_) _ _) fun _ => ?_
  · refine keeps_bind keeps_get fun db => keeps_require_bind fun channel => ?_
    exact keeps_rejectIf_bind (keeps_rejectIf_bind (keeps_modify fun s => w.channel s _))
  exact keeps_bind (keeps_modify fun s => w.correction s _) fun _ => keeps_pure _

/-- A correction is one transaction of these writes. -/
theorem keeps_applyBillingCorrection (request : CorrectionRequest) :
    Keeps R (applyBillingCorrection env request) := by
  refine keeps_bind keeps_get fun db => keeps_require_bind fun batch => ?_
  refine keeps_rejectIf_bind (keeps_transaction ?_)
  refine keeps_bind (keeps_firstUser _) fun user => ?_
  refine keeps_bind (keeps_lockBillingAccount w.toLedgerWrites _) fun account => ?_
  refine keeps_bind keeps_get fun db => keeps_require_bind fun batch => ?_
  refine keeps_rejectIf_bind (keeps_ite (keeps_pure batch) ?_)
  refine keeps_rejectIf_bind (keeps_rejectIf_bind (keeps_ofExcept_bind fun _ => ?_))
  refine keeps_rejectIf_bind (keeps_rejectIf_bind (keeps_rejectIf_bind ?_))
  exact keeps_postCorrection w env batch user request

theorem keeps_previewBillingCorrection (now : ℤ) (uuid : String)
    (input : BillingCorrectionInput) (actorID : ℤ) (rate userGroup : String) :
    Keeps R (previewBillingCorrection env now uuid input actorID rate userGroup) := by
  refine keeps_rejectIf_bind (keeps_rejectIf_bind (keeps_rejectIf_bind (keeps_rejectIf_bind ?_)))
  refine keeps_transaction (keeps_bind (keeps_firstUser _) fun user => ?_)
  refine keeps_rejectIf_bind ?_
  refine keeps_bind (keeps_lockBillingAccount w.toLedgerWrites _) fun account => ?_
  refine keeps_rejectIf_bind (keeps_bind keeps_get fun db => ?_)
  refine keeps_ofExcept_bind fun rows => keeps_ofExcept_bind fun batch => ?_
  refine keeps_bind (keeps_bind keeps_get fun db => ?_) fun _ => keeps_pure _
  exact keeps_rejectIf_bind (keeps_modify fun s => w.correction s _)

end Correction

end NovaMaas.Billing
