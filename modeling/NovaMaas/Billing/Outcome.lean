/-
  The outcome of a billing operation: exactly once.

  `OutcomeOK db id` ties the operation row to the entry table: a SETTLED operation owns one entry under
  its settlement key, of kind `usage` and of its actual amount, and an operation in any other state owns
  none.  Every ledger call keeps it, provided the calls that bring their own event key stay out of the
  `settle:` name space (`LedgerCall.KeyOwned` — the source demands that event keys are server-owned, and
  every caller uses a prefix of its own).

  A closed operation is a fixed row: no call rewrites it (`exec_closed`).  A later `Finish` or `Resize`
  accepts the same outcome again; anything else is a conflict; and neither changes anything
  (`finish_closed`, `resize_closed`).
-/
import NovaMaas.Billing.Conservation

open List

namespace NovaMaas.Billing

open Txn Table LedgerCall

/-! ## Settlement keys -/

theorem settle_key_injective {a b : String} (h : "settle:" ++ a = "settle:" ++ b) : a = b := by
  have hl := congrArg String.toList h
  rw [String.toList_append, String.toList_append] at hl
  exact String.toList_injective (append_cancel_left hl)

theorem task_key_ne_settle (a b : String) : "task:" ++ a ≠ "settle:" ++ b := by
  intro h
  have hl := congrArg String.toList h
  rw [String.toList_append, String.toList_append] at hl
  simp at hl

theorem midjourney_key_ne_settle (a b : String) : "mj-refund:" ++ a ≠ "settle:" ++ b := by
  intro h
  have hl := congrArg String.toList h
  rw [String.toList_append, String.toList_append] at hl
  simp at hl

/-- The entries under the settlement key of operation `id`. -/
def settlementEntries (db : DB) (id : String) : List BillingEntry :=
  db.entries.rows.filter (fun e => e.eventKey = "settle:" ++ id)

variable {entry : BillingEntry} {user : User} {s s' : DB}

theorem settlementEntries_appended {now : ℤ} (h : Appended now user entry s s') (id : String) :
    settlementEntries s' id = settlementEntries s id ++
      (if entry.eventKey = "settle:" ++ id then [stored s now user entry] else []) := by
  unfold settlementEntries
  rw [h.entries, filter_append, filter_singleton]
  have hkey : (stored s now user entry).eventKey = entry.eventKey := rfl
  rw [hkey]
  by_cases hk : entry.eventKey = "settle:" ++ id
  · simp [hk]
  · simp [hk]

variable {id : String}

/-- The key of an appended entry was not in use. -/
theorem settlementEntries_fresh {now : ℤ} (h : Appended now user entry s s')
    (hkey : entry.eventKey = "settle:" ++ id) :
    settlementEntries s id = [] := by
  refine filter_eq_nil_iff.mpr ?_
  intro e he hk
  refine h.fresh ?_
  rw [hkey, ← of_decide_eq_true hk]
  exact mem_map_of_mem he

/-! ## The invariant -/

/-- The operation row of `id` and the entries under its settlement key agree. -/
def OutcomeOK (db : DB) (id : String) : Prop :=
  match db.operations.get? id with
  | none => settlementEntries db id = []
  | some op =>
    (db.users.get? op.userID).isSome ∧ match op.state with
      | .settled => ∃ e, settlementEntries db id = [e] ∧ e.kind = .usage ∧ e.quota = op.actual ∧
          e.userID = op.userID
      | .reserved => settlementEntries db id = []
      | .refunded => settlementEntries db id = []

/-- A call that neither touches operation `id` nor its entries, and deletes no user, keeps it. -/
theorem OutcomeOK.of_same (h : OutcomeOK s id) (hop : s'.operations.get? id = s.operations.get? id)
    (hentries : settlementEntries s' id = settlementEntries s id)
    (husers : ∀ u, (s.users.get? u).isSome → (s'.users.get? u).isSome) : OutcomeOK s' id := by
  unfold OutcomeOK at h ⊢
  rw [hop, hentries]
  cases hrow : s.operations.get? id with
  | none =>
    rw [hrow] at h
    exact h
  | some op =>
    rw [hrow] at h
    exact ⟨husers _ h.1, h.2⟩

theorem isSome_putUser (db : DB) (user : User) (u : ℤ) (h : (db.users.get? u).isSome) :
    ((db.putUser user).users.get? u).isSome := by
  unfold DB.putUser
  rw [get?_put]
  split
  · rfl
  · exact h

variable {delta : ℤ}

theorem users_of_charged {now : ℤ} (h : Charged now user delta entry s s') :
    s'.users = (s.putUser (paid user delta)).users := by
  rw [h.appended.frame]
  rfl

theorem operations_of_charged {now : ℤ}
    (h : Charged now user delta entry s s') : s'.operations = s.operations := by
  rw [h.appended.frame]
  rfl

theorem settlementEntries_charged {now : ℤ} (h : Charged now user delta entry s s') (id : String)
    (hkey : entry.eventKey ≠ "settle:" ++ id) :
    settlementEntries s' id = settlementEntries s id := by
  rw [settlementEntries_appended h.appended, if_neg hkey, append_nil]
  rfl

/-- Charging under a key that is not `id`'s settlement key keeps the outcome of `id`. -/
theorem OutcomeOK.charged {now : ℤ} (h : OutcomeOK s id) (hc : Charged now user delta entry s s')
    (hkey : entry.eventKey ≠ "settle:" ++ id) : OutcomeOK s' id := by
  refine h.of_same ?_ (settlementEntries_charged hc id hkey) ?_
  · rw [operations_of_charged hc]
  · intro u hu
    rw [users_of_charged hc]
    exact isSome_putUser _ _ _ hu

/-- An entry a caller brings its own key for stays out of the settlement keys. -/
def LedgerCall.KeyOwned : LedgerCall → Prop
  | .adjust _ entry _ => ∀ id, entry.eventKey ≠ "settle:" ++ id
  | _ => True

/-! ## One call -/

theorem begin_outcome (now : ℤ) (op : BillingOperation) (s : DB) (id : String) (h : OutcomeOK s id) :
    wp (beginBillingOperation now op) (fun _ s' => OutcomeOK s' id) s := by
  refine wp_mono (beginBillingOperation_spec now op s) ?_
  rintro _ s' ⟨user, hrow, hid, hnew, rfl⟩
  generalize hop : ({ op with state := .reserved, createdAt := now, updatedAt := now } :
    BillingOperation) = op'
  have hopid : op'.id = op.id := by rw [← hop]
  by_cases hsame : op.id = id
  · subst hsame
    have hget : ((s.putOperation op').putUser (paid user (-op.reserved))).operations.get? op.id = some op' := by
      rw [← hopid]
      exact get?_put_self s.operations op'
    have hempty : settlementEntries s op.id = [] := by
      unfold OutcomeOK at h
      rw [hnew] at h
      exact h
    unfold OutcomeOK
    rw [hget, ← hop]
    refine ⟨?_, hempty⟩
    rw [← hid]
    exact isSome_putUser _ _ _ (Option.isSome_iff_exists.mpr ⟨user, hrow⟩)
  · refine h.of_same ?_ rfl ?_
    · exact get?_put_ne (hopid ▸ hsame)
    · intro u hu
      exact isSome_putUser _ _ _ hu

theorem resize_outcome (now : ℤ) (opID : String) (userID target : ℤ) (s : DB) (id : String) (h : OutcomeOK s id) :
    wp (resizeBillingReservation now opID userID target) (fun _ s' => OutcomeOK s' id) s := by
  refine wp_mono (resizeBillingReservation_spec now opID userID target s) ?_
  rintro _ s' ⟨user, op, hrow, hid, hoprow, -, hopuser, hstate, rfl⟩
  by_cases hsame : op.id = id
  · subst hsame
    have hget : ((s.putUser (paid user (op.reserved - target))).putOperation
        { op with reserved := target, updatedAt := now }).operations.get? op.id =
        some { op with reserved := target, updatedAt := now } :=
      get?_put_self s.operations { op with reserved := target, updatedAt := now }
    unfold OutcomeOK at h ⊢
    rw [hoprow] at h
    rw [hget]
    simp only [hstate] at h ⊢
    exact ⟨isSome_putUser _ _ _ h.1, h.2⟩
  · refine h.of_same ?_ rfl ?_
    · exact get?_put_ne hsame
    · intro u hu
      exact isSome_putUser _ _ _ hu

theorem finish_outcome (now : ℤ) (opID : String) (userID actual : ℤ) (refund : Bool) (s : DB)
    (id : String) (h : OutcomeOK s id) :
    wp (finishBillingOperation now opID userID actual refund) (fun _ s' => OutcomeOK s' id) s := by
  refine wp_mono (finishBillingOperation_spec now opID userID actual refund s) ?_
  rintro _ s' ⟨-, op, -, ⟨-, -, -, -, rfl⟩ | ⟨hoprow, hopuser, hopen, user, hid, heffect⟩⟩
  · exact h
  by_cases hsame : op.id = id
  · subst hsame
    unfold OutcomeOK at h
    rw [hoprow] at h
    simp only [hopen] at h
    obtain ⟨huser, hempty⟩ := h
    rcases heffect with ⟨rfl, hrow, rfl⟩ | ⟨rfl, s1, hcharged, rfl⟩
    · -- a refund posts nothing
      have hget : ((s.putUser (paid user op.reserved)).putOperation
          (finished now op actual true)).operations.get? op.id = some (finished now op actual true) :=
        get?_put_self s.operations (finished now op actual true)
      unfold OutcomeOK
      rw [hget]
      exact ⟨isSome_putUser _ _ _ huser, hempty⟩
    · -- a settlement posts the one entry of this key
      have hget : (s1.putOperation (finished now op actual false)).operations.get? op.id =
          some (finished now op actual false) :=
        get?_put_self s1.operations (finished now op actual false)
      have hentries : settlementEntries s1 op.id = [stored (s.putUser (paid user (op.reserved - actual))) now
            (paid user (op.reserved - actual)) (settleEntry op actual)] := by
        have hkey : (settleEntry op actual).eventKey = "settle:" ++ op.id := rfl
        rw [settlementEntries_appended hcharged.appended, if_pos hkey,
          settlementEntries_fresh hcharged.appended hkey, nil_append]
      unfold OutcomeOK
      rw [hget]
      refine ⟨?_, _, hentries, rfl, rfl, ?_⟩
      · change ((s1.users.get? op.userID)).isSome
        rw [users_of_charged hcharged]
        exact isSome_putUser _ _ _ huser
      · exact hid.trans hopuser.symm
  · rcases heffect with ⟨rfl, hrow, rfl⟩ | ⟨rfl, s1, hcharged, rfl⟩
    · refine h.of_same ?_ rfl ?_
      · exact get?_put_ne hsame
      · intro u hu
        exact isSome_putUser _ _ _ hu
    · have h1 : OutcomeOK s1 id :=
        h.charged hcharged (fun hk => hsame (settle_key_injective hk))
      refine h1.of_same ?_ rfl ?_
      · exact get?_put_ne hsame
      · intro u hu
        exact hu

/-- Every call keeps the outcome invariant. -/
theorem exec_outcome {c : LedgerCall} (hkey : c.KeyOwned) : ∀ s, OutcomeOK s id → OutcomeOK (c.exec s).2 id := by
  refine (exec_atomic c).preserves ?_
  intro s h
  cases c with
  | begin now op => exact begin_outcome now op s id h
  | resize now opID userID target => exact resize_outcome now opID userID target s id h
  | finish now opID userID actual refund => exact finish_outcome now opID userID actual refund s id h
  | adjust now entry override =>
    rw [exec, wp_drop]
    refine wp_mono (postBillingAdjustment_spec now entry override s) ?_
    rintro _ s' (rfl | ⟨user, -, hcharged⟩)
    · exact h
    · refine h.charged hcharged ?_
      cases override with
      | none => exact hkey id
      | some target => exact hkey id
  | taskQuota now uuid task target modelName =>
    rw [exec, wp_drop]
    refine wp_mono (adjustBillingTaskQuota_spec now uuid task target modelName s) ?_
    rintro _ s' (rfl | ⟨user, current, s1, -, -, -, hcharged, rfl⟩)
    · exact h
    · have h1 : OutcomeOK s1 id := h.charged hcharged (task_key_ne_settle uuid id)
      exact h1
  | midjourney now uuid task modelName =>
    rw [exec, wp_drop]
    refine wp_mono (refundBillingMidjourney_spec now uuid task modelName s) ?_
    rintro _ s' (rfl | ⟨user, current, s1, -, -, hcharged, rfl⟩)
    · exact h
    · have h1 : OutcomeOK s1 id := h.charged hcharged (midjourney_key_ne_settle uuid id)
      exact h1

/-! ## Closed operations stay as they are -/

/-- Operation `id` is the row `op`, which is no longer reserved. -/
def ClosedAs (db : DB) (id : String) (op : BillingOperation) : Prop :=
  db.operations.get? id = some op ∧ op.state ≠ .reserved

theorem exec_closed (c : LedgerCall) (id : String) (op : BillingOperation) :
    ∀ s, ClosedAs s id op → ClosedAs (c.exec s).2 id op := by
  refine (exec_atomic c).preserves ?_
  rintro s ⟨hrow, hclosed⟩
  -- a call rewrites a row it created or one it found reserved
  have hother : ∀ op', s.operations.get? op'.id = some op' → op'.state = .reserved → op'.id ≠ id := by
    rintro op' h1 h2 rfl
    rw [h1] at hrow
    cases hrow
    exact hclosed h2
  cases c with
  | begin now op' =>
    refine wp_mono (beginBillingOperation_spec now op' s) ?_
    rintro _ s' ⟨user, -, -, hnew, rfl⟩
    have hne : op'.id ≠ id := by
      rintro rfl
      rw [hnew] at hrow
      cases hrow
    refine ⟨(get?_put_ne ?_).trans hrow, hclosed⟩
    exact hne
  | resize now opID userID target =>
    refine wp_mono (resizeBillingReservation_spec now opID userID target s) ?_
    rintro _ s' ⟨user, op', -, -, hoprow, -, -, hopen, rfl⟩
    refine ⟨(get?_put_ne ?_).trans hrow, hclosed⟩
    exact hother op' hoprow hopen
  | finish now opID userID actual refund =>
    refine wp_mono (finishBillingOperation_spec now opID userID actual refund s) ?_
    rintro _ s' ⟨-, op', -, ⟨-, -, -, -, rfl⟩ | ⟨hoprow, -, hopen, user, -, heffect⟩⟩
    · exact ⟨hrow, hclosed⟩
    · have hne : (finished now op' actual refund).id ≠ id := hother op' hoprow hopen
      rcases heffect with ⟨-, -, rfl⟩ | ⟨-, s1, hcharged, rfl⟩
      · exact ⟨(get?_put_ne hne).trans hrow, hclosed⟩
      · refine ⟨(get?_put_ne hne).trans ?_, hclosed⟩
        rw [operations_of_charged hcharged]
        exact hrow
  | adjust now entry override =>
    rw [exec, wp_drop]
    refine wp_mono (postBillingAdjustment_spec now entry override s) ?_
    rintro _ s' (rfl | ⟨user, -, hcharged⟩)
    · exact ⟨hrow, hclosed⟩
    · exact ⟨by rw [operations_of_charged hcharged]; exact hrow, hclosed⟩
  | taskQuota now uuid task target modelName =>
    rw [exec, wp_drop]
    refine wp_mono (adjustBillingTaskQuota_spec now uuid task target modelName s) ?_
    rintro _ s' (rfl | ⟨user, current, s1, -, -, -, hcharged, rfl⟩)
    · exact ⟨hrow, hclosed⟩
    · refine ⟨?_, hclosed⟩
      change s1.operations.get? id = some op
      rw [operations_of_charged hcharged]
      exact hrow
  | midjourney now uuid task modelName =>
    rw [exec, wp_drop]
    refine wp_mono (refundBillingMidjourney_spec now uuid task modelName s) ?_
    rintro _ s' (rfl | ⟨user, current, s1, -, -, hcharged, rfl⟩)
    · exact ⟨hrow, hclosed⟩
    · refine ⟨?_, hclosed⟩
      change s1.operations.get? id = some op
      rw [operations_of_charged hcharged]
      exact hrow

/-! ## What a closed operation answers -/

/-- The arguments ask for the outcome the operation has. -/
def SameOutcome (op : BillingOperation) (actual : ℤ) (refund : Bool) : Prop :=
  op.state = finishState refund ∧ op.actual = finishActual actual refund

instance (op : BillingOperation) (actual : ℤ) (refund : Bool) : Decidable (SameOutcome op actual refund) := by
  unfold SameOutcome
  infer_instance

theorem firstUser_run {s : DB} {u : ℤ} (h : s.users.get? u = some user) : firstUser u s = (.ok user, s) := by
  rw [firstUser, bind_ok (get_run s), h, require_some]

variable {op : BillingOperation}

theorem firstOperation_run {s : DB}
    (h : s.operations.get? id = some op) : firstOperation id op.userID s = (.ok op, s) := by
  rw [firstOperation, bind_ok (get_run s), h, bind_ok (require_some op _ s),
    bind_ok (rejectIf_neg (not_not.mpr rfl) _ s), pure_run]

/-- `Finish` on a closed operation: a validation error for an amount out of range, success for the
    outcome it has, and a conflict for any other; never a change. -/
theorem finish_closed {s : DB} (hop : ClosedAs s id op) (huser : (s.users.get? op.userID).isSome) (now actual : ℤ)
    (refund : Bool) :
    finishBillingOperation now id op.userID actual refund s =
      (if actual < 0 ∨ actual > maxWalletQuota then .error .invalidCharge
        else if SameOutcome op actual refund then .ok () else .error .conflict, s) := by
  obtain ⟨user, hrow⟩ := Option.isSome_iff_exists.mp huser
  by_cases hrange : actual < 0 ∨ actual > maxWalletQuota
  · rw [finishBillingOperation, bind_error (rejectIf_pos hrange _ s), if_pos hrange]
  rw [finishBillingOperation, bind_ok (rejectIf_neg hrange _ s), if_neg hrange]
  by_cases hsame : SameOutcome op actual refund
  · rw [if_pos hsame]
    refine transaction_ok ?_
    rw [bind_ok (firstUser_run hrow), bind_ok (firstOperation_run hop.1)]
    exact congrFun (if_pos hsame) s
  · rw [if_neg hsame]
    refine @transaction_error DB BillingError Unit _ s s _ ?_
    rw [bind_ok (firstUser_run hrow), bind_ok (firstOperation_run hop.1)]
    refine (congrFun (if_neg hsame) s).trans ?_
    exact bind_error (rejectIf_pos hop.2 _ s)

/-- `Resize` on a closed operation never succeeds and never changes anything. -/
theorem resize_closed {s : DB} (hop : ClosedAs s id op) (huser : (s.users.get? op.userID).isSome) (now target : ℤ) :
    resizeBillingReservation now id op.userID target s =
      (if target < 0 ∨ target > maxWalletQuota then .error .invalidReservation else .error .conflict, s) := by
  obtain ⟨user, hrow⟩ := Option.isSome_iff_exists.mp huser
  by_cases hrange : target < 0 ∨ target > maxWalletQuota
  · rw [resizeBillingReservation, bind_error (rejectIf_pos hrange _ s), if_pos hrange]
  rw [resizeBillingReservation, bind_ok (rejectIf_neg hrange _ s), if_neg hrange]
  refine @transaction_error DB BillingError Unit _ s s _ ?_
  rw [bind_ok (firstUser_run hrow), bind_ok (firstOperation_run hop.1), bind_error (rejectIf_pos hop.2 _ s)]

theorem OutcomeOK.user_exists {s : DB} (h : OutcomeOK s id)
    (hop : s.operations.get? id = some op) : (s.users.get? op.userID).isSome := by
  unfold OutcomeOK at h
  rw [hop] at h
  exact h.1

/-- A successful `Finish` leaves the operation closed with the outcome it was asked for. -/
theorem finish_closes (now : ℤ) (id : String) (userID actual : ℤ) (refund : Bool) (s : DB) :
    wp (finishBillingOperation now id userID actual refund) (fun _ s' => ∃ op,
      op.userID = userID ∧ ClosedAs s' id op ∧ SameOutcome op actual refund ∧
        ¬ (actual < 0 ∨ actual > maxWalletQuota)) s := by
  refine wp_mono (finishBillingOperation_spec now id userID actual refund s) ?_
  rintro _ s' ⟨hrange, op, rfl, ⟨hrow, huser, hstate, hactual, rfl⟩ | ⟨-, hopuser, -, user, -, heffect⟩⟩
  · refine ⟨op, huser, ⟨hrow, ?_⟩, ⟨hstate, hactual⟩, hrange⟩
    rw [hstate]
    cases refund <;> decide
  · refine ⟨finished now op actual refund, hopuser, ⟨?_, ?_⟩, ⟨rfl, rfl⟩, hrange⟩
    · rcases heffect with ⟨-, -, rfl⟩ | ⟨-, s1, -, rfl⟩
      · exact get?_put_self s.operations (finished now op actual refund)
      · exact get?_put_self s1.operations (finished now op actual refund)
    · cases refund <;> intro h <;> cases h

/-! ## The outcome over histories -/

/-- **Exactly once.**  Take any history of ledger calls from a state that does not know the
    operation yet.  (1) The operation row agrees with the entries under its settlement key.  (2) Once
    it is closed, no continuation changes its row; past the range check, `Finish` answers success or
    a conflict by whether the outcome is the one on record, `Resize` answers a conflict, and neither
    ever changes anything.
    (3) A `Finish` that succeeded can be repeated any time later, succeeds and changes nothing. -/
theorem operation_outcome (s0 : DB) (id : String) (hnew : s0.operations.get? id = none)
    (hkeys : settlementEntries s0 id = []) (calls : List LedgerCall)
    (howned : ∀ c ∈ calls, c.KeyOwned) :
    OutcomeOK (run exec s0 calls) id ∧
    (∀ op, ClosedAs (run exec s0 calls) id op → (∀ more, ClosedAs (run exec (run exec s0 calls) more) id op) ∧
      (∀ now actual refund, finishBillingOperation now id op.userID actual refund (run exec s0 calls) =
          (if actual < 0 ∨ actual > maxWalletQuota then .error .invalidCharge
            else if SameOutcome op actual refund then .ok () else .error .conflict,
            run exec s0 calls)) ∧
      (∀ now target, resizeBillingReservation now id op.userID target (run exec s0 calls) =
          (if target < 0 ∨ target > maxWalletQuota then .error .invalidReservation
            else .error .conflict, run exec s0 calls))) ∧
    (∀ now userID actual refund s1,
      finishBillingOperation now id userID actual refund (run exec s0 calls) = (.ok (), s1) →
      ∀ more, (∀ c ∈ more, c.KeyOwned) → ∀ now',
        finishBillingOperation now' id userID actual refund (run exec s1 more) = (.ok (), run exec s1 more)) := by
  have hok : OutcomeOK (run exec s0 calls) id := by
    refine run_invariant (I := fun s => OutcomeOK s id) (fun c hc => exec_outcome (howned c hc)) s0 ?_
    unfold OutcomeOK
    rw [hnew]
    exact hkeys
  refine ⟨hok, ?_, ?_⟩
  · intro op hop
    have huser := hok.user_exists hop.1
    refine ⟨?_, ?_, ?_⟩
    · intro more
      exact run_invariant (I := fun s => ClosedAs s id op) (fun c _ => exec_closed c id op) _ hop
    · intro now actual refund
      exact finish_closed hop huser now actual refund
    · intro now target
      exact resize_closed hop huser now target
  · intro now userID actual refund s1 hfinish more hmore now'
    obtain ⟨op, rfl, hclosed, hsame, hrange⟩ :=
      finish_closes now id userID actual refund _ () s1 hfinish
    have hok1 : OutcomeOK s1 id :=
      finish_outcome now id op.userID actual refund _ id hok () s1 hfinish
    have hokMore := run_invariant (I := fun s => OutcomeOK s id)
      (fun c hc => exec_outcome (hmore c hc)) s1 hok1
    have hclosedMore : ClosedAs (run exec s1 more) id op :=
      run_invariant (I := fun s => ClosedAs s id op) (fun c _ => exec_closed c id op) s1 hclosed
    rw [finish_closed hclosedMore (hokMore.user_exists hclosedMore.1), if_neg hrange, if_pos hsame]

theorem operation_outcome_settleAtFifty : (run exec walletOfHundred settleAtFifty).operations.rows.map
        (fun op => (op.state, op.actual)) = [(.settled, 50)] ∧
      (settlementEntries (run exec walletOfHundred settleAtFifty) "r").map BillingEntry.quota = [50] ∧
      OutcomeOK (run exec walletOfHundred settleAtFifty) "r" := by
  refine ⟨by decide, by decide, ?_⟩
  refine (operation_outcome walletOfHundred "r" (by decide) (by decide) settleAtFifty ?_).1
  intro c hc
  simp only [settleAtFifty, mem_cons, not_mem_nil, or_false] at hc
  rcases hc with rfl | rfl | rfl
  · trivial
  · trivial
  · trivial

end NovaMaas.Billing
