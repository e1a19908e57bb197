/-
  What a successful ledger call does.

  One lemma per function of `Billing.Ledger`, all of the form `wp (call) (fun r s' => …) s`: if the
  call succeeds from `s`, the state it leaves is THIS one.  Callers cite these and never unfold a
  function again.

  * `Appended` is the effect of `appendBillingEntry`: one entry at the end of the table, the
    account's sequence one further, the entry's hour row extended if the entry is in scope, nothing
    else touched.
  * A mutator that finds its work already done leaves the state equal; otherwise it moves the
    wallet (`paid`), possibly appends one entry, and writes the row it is about.
-/
import NovaMaas.Billing.Ledger

namespace NovaMaas.Billing

open Txn

/-! ## Accounts that exist on first use -/

/-- The account of a user, with the defaults it is created with. -/
def accountOf (db : DB) (u : ℤ) : BillingAccount := (db.accounts.get? u).getD { userID := u }

theorem accountOf_userID (db : DB) (u : ℤ) : (accountOf db u).userID = u := by
  unfold accountOf
  cases h : db.accounts.get? u with
  | none => rfl
  | some => exact Table.key_of_get? h

theorem accountOf_put (db : DB) (a : BillingAccount) (u : ℤ) :
    accountOf (db.putAccount a) u = if a.userID = u then a else accountOf db u := by
  unfold accountOf DB.putAccount
  rw [Table.get?_put]
  split <;> simp

/-- Locking an account changes no account. -/
theorem lockBillingAccount_spec (u : ℤ) (s : DB) : wp (lockBillingAccount u) (fun a s' =>
      a = accountOf s u ∧ (∀ v, accountOf s' v = accountOf s v) ∧
        s' = s.withLedgerOf s' ∧ s'.entries = s.entries ∧ s'.hours = s.hours) s := by
  simp only [lockBillingAccount, wp_bind, wp_get]
  cases h : s.accounts.get? u with
  | some =>
    rw [wp_pure, accountOf, h]
    exact ⟨rfl, fun _ => rfl, rfl, rfl, rfl⟩
  | none =>
    rw [wp_bind, wp_modify, wp_pure]
    refine ⟨by rw [accountOf, h]; rfl, ?_, rfl, rfl, rfl⟩
    intro v
    rw [accountOf_put]
    split
    · rename_i hv
      rw [← hv, accountOf, h]
      rfl
    · rfl

/-- Locking an account that exists does nothing. -/
theorem lockBillingAccount_run {u : ℤ} {s : DB} {a : BillingAccount} (h : s.accounts.get? u = some a) :
    lockBillingAccount u s = (.ok a, s) := by
  rw [lockBillingAccount, bind_ok (get_run s), h]
  rfl

/-! ## Appending an entry -/

/-- Does an entry count towards its hour under this account?  Before an accounting start is
    configured (`accountingStartAt = 0`) nothing does. -/
def Eligible (a : BillingAccount) (e : BillingEntry) : Prop :=
  e.kind ≠ .funding ∧ a.accountingStartAt ≠ 0 ∧ a.accountingStartAt ≤ e.postedAt ∧ a.startSequence ≤ e.sequence

instance (a : BillingAccount) (e : BillingEntry) : Decidable (Eligible a e) := by
  unfold Eligible
  infer_instance

/-- The entry as it is stored. -/
def stored (s : DB) (now : ℤ) (user : User) (entry : BillingEntry) : BillingEntry :=
  { entry with
    id := s.entries.nextID
    userID := user.id
    sequence := (accountOf s user.id).sequence + 1
    postedAt := now
    balanceAfter := user.quota }

/-- The effect of one append on the database. -/
structure Appended (now : ℤ) (user : User) (entry : BillingEntry) (s s' : DB) : Prop where
  entries : s'.entries.rows = s.entries.rows ++ [stored s now user entry]
  fresh : entry.eventKey ∉ s.entries.rows.map BillingEntry.eventKey
  account : ∀ v, accountOf s' v = if user.id = v then
      { accountOf s v with sequence := (accountOf s v).sequence + 1 } else accountOf s v
  hour : ∀ k, s'.hours.get? k =
    if Eligible (accountOf s user.id) (stored s now user entry) ∧ (user.id, hourOf now) = k then
      some (((s.hours.get? k).getD { userID := user.id, hour := hourOf now }).add
        (stored s now user entry))
    else s.hours.get? k
  frame : s' = s.withLedgerOf s'

theorem firstHour_spec (u h : ℤ) (s : DB) : wp (firstHour u h) (fun row s' =>
      row = (s.hours.get? (u, h)).getD { userID := u, hour := h } ∧
        (∀ k, k ≠ (u, h) → s'.hours.get? k = s.hours.get? k) ∧
        s' = s.withLedgerOf s' ∧ s'.entries = s.entries ∧ s'.accounts = s.accounts) s := by
  simp only [firstHour, wp_bind, wp_get]
  cases hrow : s.hours.get? (u, h) with
  | some =>
    rw [wp_pure]
    exact ⟨rfl, fun _ _ => rfl, rfl, rfl, rfl⟩
  | none =>
    rw [wp_bind, wp_modify, wp_pure]
    refine ⟨rfl, ?_, rfl, rfl, rfl⟩
    intro k hk
    exact Table.get?_put_ne (fun h' => hk h'.symm)

variable (now : ℤ) (user : User) (entry : BillingEntry) (id : String) (userID : ℤ)

theorem createEntry_spec (s : DB) : wp (createEntry entry) (fun e s' =>
      e = { entry with id := s.entries.nextID } ∧ s'.entries.rows = s.entries.rows ++ [e] ∧
        entry.eventKey ∉ s.entries.rows.map BillingEntry.eventKey ∧
        s' = s.setEntries s'.entries) s := by
  rw [createEntry, wp_bind, wp_get, wp_bind, wp_require]
  intro t ht
  rw [wp_bind, wp_modify, wp_pure]
  obtain ⟨hrows, hfresh⟩ := EntryTable.create?_some ht
  exact ⟨rfl, hrows, hfresh, rfl⟩

/-- The account row is written before the hour row is looked at. -/
theorem accountOf_sequence_succ {s s2 : DB} (h : ∀ v, accountOf s2 v = accountOf s v) (u v : ℤ) :
    accountOf (s2.putAccount { accountOf s u with sequence := (accountOf s u).sequence + 1 }) v =
      if u = v then { accountOf s v with sequence := (accountOf s v).sequence + 1 }
      else accountOf s v := by
  rw [accountOf_put, accountOf_userID, h]
  split
  · rename_i hv
    rw [hv]
  · rfl

theorem appendBillingEntry_spec (s : DB) : wp (appendBillingEntry now user entry) (fun e s' =>
      e = stored s now user entry ∧ Appended now user entry s s') s := by
  rw [appendBillingEntry, wp_bind]
  refine wp_mono (lockBillingAccount_spec user.id s) ?_
  rintro account s1 ⟨rfl, hacc1, hframe1, hentries1, hhours1⟩
  dsimp only
  rw [wp_bind]
  refine wp_mono (createEntry_spec _ s1) ?_
  rintro e s2 ⟨he, hrows2, hfresh2, hframe2⟩
  have hstored : e = stored s now user entry := by
    rw [he, hentries1]
    rfl
  have hacc2 : ∀ v, accountOf s2 v = accountOf s v := by
    intro v
    rw [← hacc1 v, hframe2]
    rfl
  have hhours2 : s2.hours = s.hours := by
    rw [hframe2]
    exact hhours1
  have hframe : s2 = s.withLedgerOf s2 := by
    rw [hframe2, hframe1]
    rfl
  rw [hentries1] at hrows2 hfresh2
  subst hstored
  rw [wp_bind, wp_modify, wp_ite]
  have hacc3 := accountOf_sequence_succ hacc2 user.id
  generalize hs3 : s2.putAccount
    { accountOf s user.id with sequence := (accountOf s user.id).sequence + 1 } = s3 at hacc3 ⊢
  have hhours3 : s3.hours = s.hours := by
    rw [← hs3]
    exact hhours2
  have hrows3 : s3.entries.rows = s.entries.rows ++ [stored s now user entry] := by
    rw [← hs3]
    exact hrows2
  have hframe3 : s3 = s.withLedgerOf s3 := by
    rw [← hs3, hframe]
    rfl
  constructor
  · -- out of scope: no hour row
    intro hskip
    rw [wp_pure]
    refine ⟨rfl, hrows3, hfresh2, hacc3, ?_, hframe3⟩
    intro k
    rw [if_neg, hhours3]
    rintro ⟨⟨h1, h2, h3, h4⟩, -⟩
    rcases hskip with h | h | h | h
    · exact h1 h
    · exact h2 h
    · omega
    · omega
  · intro hscope
    have helig : Eligible (accountOf s user.id) (stored s now user entry) := by
      refine ⟨fun h => hscope (Or.inl h), fun h => hscope (Or.inr (Or.inl h)), ?_, ?_⟩
      · by_contra h
        exact hscope (Or.inr (Or.inr (Or.inl (by omega))))
      · by_contra h
        exact hscope (Or.inr (Or.inr (Or.inr (by omega))))
    rw [wp_bind]
    refine wp_mono (firstHour_spec user.id (hourOf now) s3) ?_
    rintro hour s4 ⟨rfl, hother, hframe4, hentries4, haccounts4⟩
    rw [wp_bind, wp_rejectIf]
    intro _
    rw [wp_bind, wp_modify, wp_pure]
    refine ⟨rfl, ?_, hfresh2, ?_, ?_, ?_⟩
    · rw [← hrows3, ← hentries4]
      rfl
    · intro v
      rw [← hacc3 v, accountOf, accountOf, ← haccounts4]
      rfl
    · intro k
      have hkey : (((s3.hours.get? (user.id, hourOf now)).getD
          { userID := user.id, hour := hourOf now }).add (stored s now user entry)).key =
          (user.id, hourOf now) := by
        cases hrow : s3.hours.get? (user.id, hourOf now) with
        | none => rfl
        | some row =>
          have hrowKey : row.key = (user.id, hourOf now) := Table.key_of_get? hrow
          exact hrowKey
      rw [DB.putHour, Table.get?_put, hkey]
      by_cases hk : (user.id, hourOf now) = k
      · subst hk
        rw [if_pos rfl, if_pos ⟨helig, rfl⟩, hhours3]
      · rw [if_neg hk, if_neg (fun h => hk h.2), hother k (fun h => hk h.symm), hhours3]
    · rw [hframe4, hframe3]
      rfl

/-! ## Moving the wallet -/

/-- The user row after its wallet moved by `delta`. -/
def paid (user : User) (delta : ℤ) : User := { user with quota := user.quota + delta }

theorem changeBillingWallet_spec (delta : ℤ) (s : DB) : wp (changeBillingWallet user delta) (fun u s' =>
      u = paid user delta ∧ s' = s.putUser (paid user delta)) s := by
  rw [changeBillingWallet, wp_bind, wp_rejectIf]
  intro _
  rw [wp_bind, wp_modify, wp_pure]
  exact ⟨rfl, rfl⟩

theorem firstUser_spec (id : ℤ) (s : DB) :
    wp (firstUser id) (fun user s' => s' = s ∧ user.id = id ∧ s.users.get? user.id = some user) s := by
  rw [firstUser, wp_bind, wp_get, wp_require]
  intro user h
  have hid : user.id = id := Table.key_of_get? h
  exact ⟨rfl, hid, by rw [hid, h]⟩

theorem firstOperation_spec (s : DB) : wp (firstOperation id userID) (fun op s' =>
      s' = s ∧ op.id = id ∧ op.userID = userID ∧ s.operations.get? op.id = some op) s := by
  rw [firstOperation, wp_bind, wp_get, wp_bind, wp_require]
  intro op h
  rw [wp_bind, wp_rejectIf]
  intro huser
  rw [wp_pure]
  have hid : op.id = id := Table.key_of_get? h
  exact ⟨rfl, hid, not_not.mp huser, by rw [hid, h]⟩

/-- The wallet moved by `delta`, and `entry` was appended. -/
structure Charged (now : ℤ) (user : User) (delta : ℤ) (entry : BillingEntry) (s s' : DB) : Prop where
  user_row : s.users.get? user.id = some user
  appended : Appended now (paid user delta) entry (s.putUser (paid user delta)) s'

/-! ## The six calls -/

theorem beginBillingOperation_spec (op : BillingOperation) (s : DB) :
    wp (beginBillingOperation now op) (fun _ s' => ∃ user, s.users.get? user.id = some user ∧ user.id = op.userID ∧
      s.operations.get? op.id = none ∧
      s' = (s.putOperation { op with state := .reserved, createdAt := now, updatedAt := now }).putUser
        (paid user (-op.reserved))) s := by
  rw [beginBillingOperation, wp_bind, wp_rejectIf]
  intro _
  rw [wp_transaction, wp_bind]
  refine wp_mono (firstUser_spec op.userID s) ?_
  rintro user s1 ⟨rfl, hid, hrow⟩
  rw [wp_bind, wp_rejectIf]
  intro _
  rw [wp_bind, createOperation, wp_bind, wp_get, wp_bind, wp_rejectIf]
  intro hnew
  rw [wp_modify, wp_bind]
  refine wp_mono (changeBillingWallet_spec user _ _) ?_
  rintro user' s2 ⟨-, rfl⟩
  rw [wp_pure]
  exact ⟨user, hrow, hid, Option.not_isSome_iff_eq_none.mp hnew, rfl⟩

theorem resizeBillingReservation_spec (target : ℤ) (s : DB) :
    wp (resizeBillingReservation now id userID target) (fun _ s' => ∃ user op,
      s.users.get? user.id = some user ∧ user.id = userID ∧
      s.operations.get? op.id = some op ∧ op.id = id ∧ op.userID = userID ∧ op.state = .reserved ∧
      s' = (s.putUser (paid user (op.reserved - target))).putOperation
        { op with reserved := target, updatedAt := now }) s := by
  rw [resizeBillingReservation, wp_bind, wp_rejectIf]
  intro _
  rw [wp_transaction, wp_bind]
  refine wp_mono (firstUser_spec userID s) ?_
  rintro user s1 ⟨rfl, hid, hrow⟩
  rw [wp_bind]
  refine wp_mono (firstOperation_spec id userID s1) ?_
  rintro op s2 ⟨rfl, hopid, hopuser, hoprow⟩
  rw [wp_bind, wp_rejectIf]
  intro hstate
  rw [wp_bind]
  refine wp_mono (changeBillingWallet_spec user _ _) ?_
  rintro user' s3 ⟨-, rfl⟩
  rw [wp_modify]
  exact ⟨user, op, hrow, hid, hoprow, hopid, hopuser, not_not.mp hstate, rfl⟩

/-- The row of a finished operation. -/
def finished (now : ℤ) (op : BillingOperation) (actual : ℤ) (refund : Bool) : BillingOperation :=
  { op with
    state := finishState refund, actual := finishActual actual refund, updatedAt := now }

/-- What finishing an open operation does. -/
structure Finished (now : ℤ) (op : BillingOperation) (userID actual : ℤ) (refund : Bool)
    (s s' : DB) : Prop where
  op_row : s.operations.get? op.id = some op
  op_user : op.userID = userID
  reserved : op.state = .reserved
  effect : ∃ user, user.id = userID ∧ ((refund = true ∧ s.users.get? user.id = some user ∧
        s' = (s.putUser (paid user op.reserved)).putOperation (finished now op actual refund)) ∨
      (refund = false ∧ ∃ s1, Charged now user (op.reserved - actual) (settleEntry op actual) s s1 ∧
        s' = s1.putOperation (finished now op actual refund)))

theorem finishBillingOperation_spec (actual : ℤ) (refund : Bool) (s : DB) :
    wp (finishBillingOperation now id userID actual refund) (fun _ s' =>
      ¬ (actual < 0 ∨ actual > maxWalletQuota) ∧ ∃ op, op.id = id ∧
        ((s.operations.get? op.id = some op ∧ op.userID = userID ∧ op.state = finishState refund ∧
            op.actual = finishActual actual refund ∧ s' = s) ∨
          Finished now op userID actual refund s s')) s := by
  rw [finishBillingOperation, wp_bind, wp_rejectIf]
  intro hrange
  rw [wp_transaction, wp_bind]
  refine wp_mono (firstUser_spec userID s) ?_
  rintro user s1 ⟨rfl, hid, hrow⟩
  rw [wp_bind]
  refine wp_mono (firstOperation_spec id userID s1) ?_
  rintro op s2 ⟨rfl, hopid, hopuser, hoprow⟩
  rw [wp_ite]
  constructor
  · -- the outcome is already recorded
    rintro ⟨hstate, hactual⟩
    rw [wp_pure]
    exact ⟨hrange, op, hopid, Or.inl ⟨hoprow, hopuser, hstate, hactual, rfl⟩⟩
  · intro _
    rw [wp_bind, wp_rejectIf]
    intro hstate
    rw [wp_bind]
    refine wp_mono (changeBillingWallet_spec user _ _) ?_
    rintro user' s3 ⟨rfl, rfl⟩
    rw [wp_bind, postSettlement, wp_ite]
    constructor
    · intro hrefund
      subst hrefund
      rw [wp_pure, wp_modify]
      refine ⟨hrange, op, hopid, Or.inr ⟨hoprow, hopuser, not_not.mp hstate, user, hid, Or.inl ?_⟩⟩
      refine ⟨rfl, hrow, ?_⟩
      simp only [finishActual, if_true, sub_zero]
      rfl
    · intro hrefund
      obtain rfl : refund = false := Bool.not_eq_true _ ▸ hrefund
      rw [wp_bind]
      refine wp_mono (appendBillingEntry_spec now _ _ _) ?_
      rintro e s4 ⟨-, happ⟩
      rw [wp_pure, wp_modify]
      exact ⟨hrange, op, hopid, Or.inr ⟨hoprow, hopuser, not_not.mp hstate, user, hid,
        Or.inr ⟨rfl, s4, ⟨hrow, happ⟩, rfl⟩⟩⟩

theorem postBillingAdjustment_spec (override : Option ℤ) (s : DB) :
    wp (postBillingAdjustment now entry override) (fun _ s' => s' = s ∨ ∃ user, user.id = entry.userID ∧
      Charged now user (overrideDelta user entry override).walletDelta
        (overrideDelta user entry override) s s') s := by
  rw [postBillingAdjustment, wp_bind, wp_rejectIf]
  intro _
  rw [wp_bind, wp_rejectIf]
  intro _
  rw [wp_bind, wp_rejectIf]
  intro _
  rw [wp_bind, wp_rejectIf]
  intro _
  rw [wp_transaction, wp_bind]
  refine wp_mono (firstUser_spec entry.userID s) ?_
  rintro user s1 ⟨rfl, hid, hrow⟩
  rw [wp_bind, wp_get]
  cases hfind : s1.entries.rows.find? (fun e => e.eventKey = entry.eventKey) with
  | some =>
    rw [wp_bind, wp_rejectIf]
    intro _
    rw [wp_pure]
    exact Or.inl rfl
  | none =>
    dsimp only
    rw [wp_bind]
    refine wp_mono (changeBillingWallet_spec user _ _) ?_
    rintro user' s2 ⟨rfl, rfl⟩
    rw [wp_bind]
    refine wp_mono (appendBillingEntry_spec now _ _ _) ?_
    rintro e s3 ⟨-, happ⟩
    rw [wp_pure]
    exact Or.inr ⟨user, hid, hrow, happ⟩

theorem adjustBillingTaskQuota_spec (uuid : String) (task : Task) (target : ℤ) (modelName : String) (s : DB) :
    wp (adjustBillingTaskQuota now uuid task target modelName) (fun _ s' => s' = s ∨
      ∃ user current s1, user.id = task.userID ∧ s.tasks.get? task.id = some current ∧ current.quota = task.quota ∧
        Charged now user (-(target - current.quota)) (taskEntry uuid modelName task (target - current.quota)) s s1 ∧
        s' = s1.putTask { current with quota := target }) s := by
  rw [adjustBillingTaskQuota, wp_bind, wp_rejectIf]
  intro _
  rw [wp_transaction, wp_bind]
  refine wp_mono (firstUser_spec task.userID s) ?_
  rintro user s1 ⟨rfl, hid, hrow⟩
  rw [wp_bind, wp_get, wp_bind, wp_require]
  intro current hcurrent
  rw [wp_bind, wp_rejectIf]
  intro _
  rw [wp_ite]
  constructor
  · intro _
    rw [wp_pure]
    exact Or.inl rfl
  · intro _
    rw [wp_bind, wp_rejectIf]
    intro hquota
    dsimp only
    rw [wp_bind]
    refine wp_mono (changeBillingWallet_spec user _ _) ?_
    rintro user' s2 ⟨rfl, rfl⟩
    rw [wp_bind]
    refine wp_mono (appendBillingEntry_spec now _ _ _) ?_
    rintro e s3 ⟨-, happ⟩
    rw [wp_bind, wp_modify, wp_pure]
    exact Or.inr ⟨user, current, s3, hid, hcurrent, not_not.mp hquota, ⟨hrow, happ⟩, rfl⟩

theorem refundBillingMidjourney_spec (uuid : String) (task : Midjourney) (modelName : String) (s : DB) :
    wp (refundBillingMidjourney now uuid task modelName) (fun _ s' => s' = s ∨
      ∃ user current s1, user.id = task.userID ∧ s.midjourneys.get? task.id = some current ∧
        Charged now user current.quota (midjourneyEntry uuid modelName task current) s s1 ∧
        s' = s1.putMidjourney { current with quota := 0 }) s := by
  rw [refundBillingMidjourney, wp_transaction, wp_bind]
  refine wp_mono (firstUser_spec task.userID s) ?_
  rintro user s1 ⟨rfl, hid, hrow⟩
  rw [wp_bind, wp_get, wp_bind, wp_require]
  intro current hcurrent
  rw [wp_bind, wp_rejectIf]
  intro _
  rw [wp_ite]
  constructor
  · intro _
    rw [wp_pure]
    exact Or.inl rfl
  · intro _
    rw [wp_bind, wp_rejectIf]
    intro _
    rw [wp_bind]
    refine wp_mono (changeBillingWallet_spec user _ _) ?_
    rintro user' s2 ⟨rfl, rfl⟩
    rw [wp_bind]
    refine wp_mono (appendBillingEntry_spec now _ _ _) ?_
    rintro e s3 ⟨-, happ⟩
    rw [wp_bind, wp_modify, wp_pure]
    exact Or.inr ⟨user, current, s3, hid, hcurrent, ⟨hrow, happ⟩, rfl⟩

end NovaMaas.Billing
