/-
  Histories of the billing subsystem, and what holds in every state they reach.

  A `BillingCall` is any call that appends to the ledger or moves it: the six ledger calls, a change
  of the account settings, a history import, a correction preview, and a correction applied or
  reversed.  Each is one transaction on the customer's row, so a history is a list of calls in the
  order they were committed.

  The books open with an empty ledger and no corrections (`Opening`), over ANY users, tokens,
  channels, tasks, logs and supplier costs.  `BooksOK` holds from then on: every customer's ledger
  is in order, and every stored batch adds up.
-/
import NovaMaas.Billing.CorrectionCall
import NovaMaas.Billing.Writes

namespace NovaMaas.Billing

open Txn Table

/-! ## Calls -/

inductive BillingCall
  | ledger (c : LedgerCall)
  | save (now userID expectedVersion : ℤ) (title taxID : String) (startAt : Option ℤ)
  | history (digest : BillingHistoryRecord → String) (now committedAt : ℤ)
      (batch : BillingHistoryImport) (expected : BillingAccount) (records : List BillingHistoryRecord)
  | preview (now : ℤ) (uuid : String) (input : BillingCorrectionInput) (actorID : ℤ)
      (rate userGroup : String)
  | correct (request : CorrectionRequest)

def BillingCall.exec (env : CorrectionEnv) : BillingCall → Tx Unit
  | .ledger c => c.exec
  | .save now userID expectedVersion title taxID startAt =>
      drop (saveBillingAccount now userID expectedVersion title taxID startAt)
  | .history digest now committedAt batch expected records =>
      drop (applyBillingHistoryImport digest now committedAt batch expected records)
  | .preview now uuid input actorID rate userGroup =>
      drop (previewBillingCorrection env now uuid input actorID rate userGroup)
  | .correct request => drop (applyBillingCorrection env request)

variable (env : CorrectionEnv) (c : BillingCall)

theorem billingCall_atomic : Atomic (c.exec env) := by
  cases c with
  | ledger c => exact exec_atomic c
  | save =>
    exact Atomic.drop (atomic_rejectIf_bind (atomic_transaction _))
  | history =>
    exact Atomic.drop (atomic_rejectIf_bind (atomic_rejectIf_bind (atomic_transaction _)))
  | preview now uuid input actorID rate userGroup =>
    exact Atomic.drop (previewBillingCorrection_atomic env now uuid input actorID rate userGroup)
  | correct request => exact Atomic.drop (applyBillingCorrection_atomic env request)

/-- Does a call belong to the corrections? -/
def BillingCall.correcting : BillingCall → Bool
  | .preview .. => true
  | .correct _ => true
  | _ => false

/-- What the writes of a call relate, the call relates. -/
theorem billingCall_keeps {R : DB → DB → Prop} [IsPreorder DB R]
    (w : CorrectionWrites R) (c : BillingCall) : Keeps R (c.exec env) := by
  cases c with
  | ledger c => exact keeps_ledgerCall w.toLedgerWrites c
  | save =>
    exact keeps_drop (keeps_saveBillingAccount w.toLedgerWrites _ _ _ _ _ _)
  | history =>
    exact keeps_drop (keeps_applyBillingHistoryImport w.toLedgerWrites _ _ _ _ _ _)
  | preview =>
    exact keeps_drop (keeps_previewBillingCorrection w _ _ _ _ _ _ _)
  | correct request => exact keeps_drop (keeps_applyBillingCorrection w env request)

/-- The calls that are no corrections write less. -/
theorem ledgerSide_keeps {R : DB → DB → Prop} [IsPreorder DB R]
    (w : LedgerWrites R) (c : BillingCall) (hc : c.correcting = false) : Keeps R (c.exec env) := by
  cases c with
  | ledger c => exact keeps_ledgerCall w c
  | save =>
    exact keeps_drop (keeps_saveBillingAccount w _ _ _ _ _ _)
  | history =>
    exact keeps_drop (keeps_applyBillingHistoryImport w _ _ _ _ _ _)
  | preview => cases hc
  | correct => cases hc

/-! ## Frames -/

/-- No account is removed. -/
def AccountsKept (s s' : DB) : Prop :=
  ∀ u, (s.accounts.get? u).isSome → (s'.accounts.get? u).isSome

instance : IsPreorder DB AccountsKept where
  refl _ _ h := h
  trans _ _ _ h1 h2 u h := h2 u (h1 u h)

theorem accountsKept_writes : CorrectionWrites AccountsKept where
  user _ _ _ h := h
  account s r u h := by
    rw [DB.putAccount, get?_put]
    split
    · rfl
    · exact h
  operation _ _ _ h := h
  entry _ _ _ _ _ h := h
  hour _ _ _ h := h
  task _ _ _ h := h
  midjourney _ _ _ h := h
  history _ _ _ h := h
  claim _ _ _ h := h
  adjustment _ _ _ _ h := h
  snapshot _ _ _ _ h := h
  token _ _ _ h := h
  channel _ _ _ h := h
  correction _ _ _ h := h

/-- Batches and claims are as they were. -/
def SameCorrections (s s' : DB) : Prop := s'.corrections = s.corrections ∧ s'.claims = s.claims

instance : IsPreorder DB SameCorrections where
  refl _ := ⟨rfl, rfl⟩
  trans _ _ _ h1 h2 := ⟨h2.1.trans h1.1, h2.2.trans h1.2⟩

theorem sameCorrections_writes : LedgerWrites SameCorrections where
  user _ _ := ⟨rfl, rfl⟩
  account _ _ := ⟨rfl, rfl⟩
  operation _ _ := ⟨rfl, rfl⟩
  entry _ _ _ _ := ⟨rfl, rfl⟩
  hour _ _ := ⟨rfl, rfl⟩
  task _ _ := ⟨rfl, rfl⟩
  midjourney _ _ := ⟨rfl, rfl⟩
  history _ _ := ⟨rfl, rfl⟩

/-! ## The books -/

/-- An empty ledger and no corrections, over any other tables. -/
structure Opening (db : DB) : Prop where
  entries : db.entries.rows = []
  hours : db.hours.rows = []
  accounts : db.accounts.rows = []
  corrections : db.corrections.rows = []
  claims : db.claims.rows = []

/-- The books are in order. -/
structure BooksOK (db : DB) : Prop where
  ledger : ∀ u, LedgerOK db u
  batches : ∀ id batch, db.corrections.get? id = some batch → BatchOK db batch

theorem Opening.booksOK {db : DB} (h : Opening db) : BooksOK db := by
  have hget : ∀ u, accountOf db u = { userID := u } := by
    intro u
    rw [accountOf, get?, h.accounts]
    rfl
  constructor
  · intro u
    refine ⟨⟨0, ?_, ?_⟩, ?_, ?_, ?_⟩
    · rw [hget]
      rfl
    · rw [entriesOf, h.entries]
      rfl
    · intro hour
      rw [get?, h.hours, entriesOf, h.entries]
      rfl
    · rw [hget]
    · rw [hget]
      exact Int.le_of_lt Int.zero_lt_one
  · intro id batch hb
    rw [get?, h.corrections] at hb
    cases hb

theorem BatchOK.accountsKept {s s' : DB} {batch : BillingCorrection} (h : BatchOK s batch)
    (hk : AccountsKept s s') : BatchOK s' batch := by
  obtain ⟨account, haccount⟩ := h.account
  have hsome := hk batch.userID (by rw [haccount]; rfl)
  exact ⟨h.nodup, h.net, Option.isSome_iff_exists.mp hsome⟩

open BillingCall

/-- The ledger side of one successful call. -/
theorem billingCall_ledger (s : DB) (h : BooksOK s) : wp (c.exec env) (fun _ s' => ∀ u, LedgerOK s' u) s := by
  cases c with
  | ledger c =>
    intro _ s' hrun u
    have hs' := exec_ledger c u s (h.ledger u)
    rw [exec] at hrun
    rw [hrun] at hs'
    exact hs'
  | save now userID expectedVersion title taxID startAt =>
    rw [exec, wp_drop]
    intro _ s' hrun u
    exact saveBillingAccount_ledger now userID expectedVersion title taxID startAt u s (h.ledger u) _ _
      hrun
  | history digest now committedAt batch expected records =>
    rw [exec, wp_drop]
    intro _ s' hrun u
    exact applyBillingHistoryImport_ledger digest now committedAt batch expected records u s
      (h.ledger u) (h.ledger batch.userID) _ _ hrun
  | preview now uuid input actorID rate userGroup =>
    rw [exec, wp_drop]
    refine wp_mono (previewBillingCorrection_spec env now uuid input actorID rate userGroup s) ?_
    intro batch s' hp u
    refine (h.ledger u).locked hp.accounts ?_ ?_ <;> rw [hp.frame]
  | correct request =>
    rw [exec, wp_drop]
    refine wp_mono (applyBillingCorrection_spec env request s (h.batches request.id)) ?_
    rintro b s' ⟨batch, -, -, ⟨-, -, rfl⟩ | ⟨-, -, hcorrected⟩⟩ u
    · exact h.ledger u
    · exact hcorrected.ledger u (h.ledger u)

theorem closeBatch_ok {s : DB} {batch : BillingCorrection} (h : BatchOK s batch)
    (request : CorrectionRequest) : BatchOK s (closeBatch batch request) := by
  unfold closeBatch
  split <;> exact ⟨h.nodup, h.net, h.account⟩

theorem closeBatch_id (batch : BillingCorrection) (request : CorrectionRequest) :
    (closeBatch batch request).id = batch.id := by
  unfold closeBatch
  split <;> rfl

/-- The batch side of one successful call. -/
theorem billingCall_batches (s : DB) (h : BooksOK s) :
    wp (c.exec env) (fun _ s' => ∀ id batch, s'.corrections.get? id = some batch → BatchOK s' batch) s := by
  refine wp_mono (wp_and (billingCall_keeps env accountsKept_writes c s) (Q := fun _ s' => AccountsKept s s')
    (R := fun _ s' => ∀ id batch, s'.corrections.get? id = some batch → BatchOK s batch ∨ BatchOK s' batch)
    ?_) ?_
  · by_cases hc : c.correcting = false
    · refine wp_mono (ledgerSide_keeps env sameCorrections_writes c hc s) ?_
      rintro _ s' ⟨hsame, -⟩ id batch hb
      rw [hsame] at hb
      exact Or.inl (h.batches id batch hb)
    · cases c with
      | ledger | save
      | history => exact absurd rfl hc
      | preview now uuid input actorID rate userGroup =>
        rw [exec, wp_drop]
        refine wp_mono (previewBillingCorrection_spec env now uuid input actorID rate userGroup s) ?_
        intro batch s' hp id b hb
        rw [hp.corrections, get?_put] at hb
        split at hb
        · cases hb
          exact Or.inr hp.batch_ok
        · exact Or.inl (h.batches id b hb)
      | correct request =>
        rw [exec, wp_drop]
        refine wp_mono (applyBillingCorrection_spec env request s (h.batches request.id)) ?_
        rintro b s' ⟨batch, hbatch, -, ⟨-, -, rfl⟩ | ⟨-, -, hcorrected⟩⟩ id b' hb'
        · exact Or.inl (h.batches id b' hb')
        · rw [hcorrected.corrections, get?_put] at hb'
          split at hb'
          · cases hb'
            exact Or.inl (closeBatch_ok (h.batches request.id batch hbatch) request)
          · exact Or.inl (h.batches id b' hb')
  · rintro _ s' ⟨hk, hb⟩ id batch hget
    rcases hb id batch hget with hold | hnew
    · exact hold.accountsKept hk
    · exact hnew

/-- Every call keeps the books in order. -/
theorem billingCall_booksOK : ∀ s, BooksOK s → BooksOK (c.exec env s).2 := by
  refine (billingCall_atomic env c).preserves ?_
  intro s h
  refine wp_mono (wp_and (billingCall_ledger env c s h) (billingCall_batches env c s h)) ?_
  rintro _ s' ⟨hledger, hbatches⟩
  exact ⟨hledger, hbatches⟩

theorem run_booksOK (calls : List BillingCall) : ∀ s, BooksOK s → BooksOK (run (exec env) s calls) :=
  run_invariant fun c _ => billingCall_booksOK env c

/-! ## What histories leave alone -/

/-- The ledger, the supplier costs and their adjustments have only grown. -/
def OnlyGrown (s s' : DB) : Prop :=
  s.entries.rows <+: s'.entries.rows ∧ s.snapshots.rows <+: s'.snapshots.rows ∧ s.adjustments.rows <+: s'.adjustments.rows

theorem OnlyGrown.same (s : DB) : OnlyGrown s s := ⟨List.prefix_rfl, List.prefix_rfl, List.prefix_rfl⟩

instance : IsPreorder DB OnlyGrown where
  refl := OnlyGrown.same
  trans _ _ _ h1 h2 := ⟨h1.1.trans h2.1, h1.2.1.trans h2.2.1, h1.2.2.trans h2.2.2⟩

theorem onlyGrown_writes : CorrectionWrites OnlyGrown where
  user s _ := .same s
  account s _ := .same s
  operation s _ := .same s
  entry s e t h := by
    refine ⟨?_, List.prefix_rfl, List.prefix_rfl⟩
    rw [DB.setEntries, (EntryTable.create?_some h).1]
    exact List.prefix_append _ _
  hour s _ := .same s
  task s _ := .same s
  midjourney s _ := .same s
  history s _ := .same s
  claim s _ := .same s
  adjustment s r h := by
    refine ⟨List.prefix_rfl, List.prefix_rfl, ?_⟩
    rw [DB.putAdjustment, rows_put_of_fresh fun x hx => (h x hx).ne]
    exact List.prefix_append _ _
  snapshot s r h := by
    refine ⟨List.prefix_rfl, ?_, List.prefix_rfl⟩
    rw [DB.putSnapshot, rows_put_of_fresh fun x hx => (h x hx).ne]
    exact List.prefix_append _ _
  token s _ := .same s
  channel s _ := .same s
  correction s _ := .same s

/-- **Nothing is rewritten.**  No history changes or removes an entry of the ledger, a supplier cost or an adjustment. -/
theorem books_only_grow (env : CorrectionEnv) (db : DB) (calls : List BillingCall) :
    OnlyGrown db (run (exec env) db calls) := by
  refine run_invariant (fun c _ => (billingCall_atomic env c).preserves ?_) db (.same db)
  intro s hs
  exact wp_mono (billingCall_keeps env onlyGrown_writes c s) fun _ _ h => IsTrans.trans _ _ _ hs h

/-! ## Sequences and hours -/

/-- **Sequences and hours.**  In every state a history reaches, the entries of every customer carry
    the sequences `1, …, account.sequence` in posting order, and every hour row is the fold of
    exactly the eligible entries of that hour: no eligible entry lacks its row, and an hour without
    one has none. -/
theorem ledger_sequences_and_hours (env : CorrectionEnv) (db : DB) (hdb : Opening db)
    (calls : List BillingCall) (u : ℤ) :
    (∃ n : ℕ, (accountOf (run (exec env) db calls) u).sequence = n ∧
      (entriesOf (run (exec env) db calls) u).map BillingEntry.sequence = upTo n) ∧
    (∀ hour, (run (exec env) db calls).hours.get? (u, hour) =
      expectedHour u hour (hourEntries (accountOf (run (exec env) db calls) u) hour
        (entriesOf (run (exec env) db calls) u))) ∧
    (∀ e ∈ entriesOf (run (exec env) db calls) u, Eligible (accountOf (run (exec env) db calls) u) e →
        ∃ row, (run (exec env) db calls).hours.get? (u, hourOf e.postedAt) = some row) := by
  have hok := (run_booksOK env calls db hdb.booksOK).ledger u
  refine ⟨hok.sequences, hok.hours, ?_⟩
  intro e he helig
  refine ⟨_, (hok.hours _).trans (if_neg ?_)⟩
  intro hnil
  have hmem : e ∈ hourEntries (accountOf (run (exec env) db calls) u) (hourOf e.postedAt)
      (entriesOf (run (exec env) db calls) u) := by
    rw [hourEntries, List.mem_filter, decide_eq_true_eq]
    exact ⟨he, helig, rfl⟩
  rw [hnil] at hmem
  exact absurd hmem List.not_mem_nil

/-- A customer with two finished tasks of one model: one at half a unit, one free of charge. -/
def twoTasks : DB :=
  { DB.empty with
    users := empty.put
      { id := 1, username := "u", group := "vip", quota := 1000000, usedQuota := 250000 }
    tasks := (empty.put
      { id := 1, taskID := "paid", userID := 1, group := "vip", quota := 250000, status := .success
        billingContext := some { modelPrice := 1 / 2, groupRatio := 1, originModelName := "m" } }).put
      { id := 2, taskID := "free", userID := 1, group := "vip", quota := 0, status := .success
        billingContext := some { modelPrice := 0, groupRatio := 1, originModelName := "m" } }
    logs := (empty.put
      { id := 1, userID := 1, type := .consume, modelName := "m", quota := 250000, group := "vip"
        requestID := "r1", other := some { taskID := "paid", groupRatio := some 1 } }).put
      { id := 2, userID := 1, type := .consume, modelName := "m", quota := 0, group := "vip"
        requestID := "r2", other := some { taskID := "free", groupRatio := some 1 } }
    channels := empty.put { id := 0 } }

theorem twoTasks_opening : Opening twoTasks := ⟨rfl, rfl, rfl, rfl, rfl⟩

/-- Configure the accounting start, then settle both tasks. -/
def settleTwoTasks : List BillingCall :=
  [.save 1000 1 0 "" "" (some 0), .ledger (.begin 2000
      { id := "o1", userID := 1, requestID := "r1", modelName := "m", reserved := 250000 }),
    .ledger (.finish 2001 "o1" 1 250000 false),
    .ledger (.begin 2002 { id := "o2", userID := 1, requestID := "r2", modelName := "m", reserved := 0 }),
    .ledger (.finish 2003 "o2" 1 0 false)]

/-- The group rates 1 and 2, and a live price list that never changed. -/
def ratesOneAndTwo : CorrectionEnv := exactEnv [("1", 1), ("2", 2)] taskPricing

theorem ledger_sequences_and_hours_settleTwoTasks : (run (exec ratesOneAndTwo) twoTasks settleTwoTasks).hours.rows.map
        (fun h => (h.charge, h.count, h.firstSequence, h.lastSequence)) = [(250000, 2, 1, 2)] ∧
      ∃ n : ℕ, (accountOf (run (exec ratesOneAndTwo) twoTasks settleTwoTasks) 1).sequence = n ∧
        (entriesOf (run (exec ratesOneAndTwo) twoTasks settleTwoTasks) 1).map BillingEntry.sequence = upTo n :=
  ⟨by decide +kernel, (ledger_sequences_and_hours ratesOneAndTwo twoTasks twoTasks_opening settleTwoTasks 1).1⟩

end NovaMaas.Billing
