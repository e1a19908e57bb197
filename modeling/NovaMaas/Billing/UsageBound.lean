/-
  What is used of a subscription stays between nothing and its total (model/subscription.go).

  Pre-consumption takes only what is left, an adjustment is cut off at zero and refused above the total, a refund is an
  adjustment, and every reset writes zero.  None of them asks what time it is: `usage_bounded` is about every order of
  calls at any clock values, over any calendar.
-/
import NovaMaas.Billing.Membership
import NovaMaas.Billing.ResetLoop

namespace NovaMaas.Billing

open Txn

/-! ## The invariant -/

/-- The total is a number of 64 bits; unless it is 0 or less, which means no limit, it bounds what is used. -/
structure Bounded (sub : UserSubscription) : Prop where
  total : sub.amountTotal < 2 ^ 63
  used  : 0 < sub.amountTotal → 0 ≤ sub.amountUsed ∧ sub.amountUsed ≤ sub.amountTotal

def AllBounded (s : SubscriptionDB) : Prop := ∀ sub ∈ s.subs.rows, Bounded sub

variable {s : SubscriptionDB} {sub : UserSubscription}

theorem AllBounded.get (h : AllBounded s) {id : ℤ} (hsub : s.subs.get? id = some sub) : Bounded sub :=
  h sub (Table.mem_of_get? hsub)

theorem AllBounded.putSub (h : AllBounded s) (hsub : Bounded sub) : AllBounded (s.putSub sub) := by
  intro row hrow
  rcases Table.mem_put.1 hrow with rfl | ⟨hrow, -⟩
  · exact hsub
  · exact h row hrow

theorem AllBounded.putRecord (h : AllBounded s) (r : SubscriptionPreConsumeRecord) : AllBounded (s.putRecord r) := h

variable {sub' : UserSubscription}

/-- A row with the same total and nothing used. -/
theorem Bounded.zeroed (h : Bounded sub) (htotal : sub'.amountTotal = sub.amountTotal)
    (hused : sub'.amountUsed = 0) : Bounded sub' := by
  have hlow := h.total
  constructor
  · omega
  · omega

/-- A row whose amounts nobody has touched. -/
theorem Bounded.same (h : Bounded sub) (htotal : sub'.amountTotal = sub.amountTotal)
    (hused : sub'.amountUsed = sub.amountUsed) : Bounded sub' := by
  constructor
  · rw [htotal]
    exact h.total
  · rw [htotal, hused]
    exact h.used

/-! ## Resets -/

/-- A reset leaves the row with nothing used, or as it was. -/
theorem dueReset_bounded {cal : Calendar} {plan : SubscriptionPlan} {now : ℤ}
    (h : Bounded sub) (hreset : dueReset cal plan now sub = some sub') : Bounded sub' := by
  by_cases hleft : (0 < sub.nextResetTime ∧ now < sub.nextResetTime) ∨ plan.quotaResetPeriod = .never
  · rw [dueReset_left hleft] at hreset
    cases hreset
  rw [dueReset_walk hleft] at hreset
  by_cases hover : 0 < firstReset cal plan sub ∧ firstReset cal plan sub ≤ now
  · rw [if_pos hover] at hreset
    cases hreset
    exact h.zeroed rfl rfl
  · rw [if_neg hover] at hreset
    obtain ⟨-, hrow⟩ := Option.ite_none_right_eq_some.1 hreset
    cases hrow
    exact h.same rfl rfl

variable (knownGroup : String → Bool) (cal : Calendar) (plan : SubscriptionPlan) (id now : ℤ) (requestID : String)
  (userID : ℤ)

/-- The row that comes out of a reset, and what has been written. -/
theorem maybeReset_holds (hsub : Bounded sub) {β : Type}
    {f : UserSubscription → SubTx β} (hf : ∀ sub', Bounded sub' → Holds AllBounded (f sub')) :
    Holds AllBounded (maybeResetUserSubscription cal plan now sub >>= f) := by
  unfold maybeResetUserSubscription
  cases hreset : dueReset cal plan now sub with
  | none => exact hf sub hsub
  | some sub' =>
    have hsub' := dueReset_bounded hsub hreset
    intro s hs
    exact hf sub' hsub' _ (hs.putSub hsub')

theorem resetUserSubscription_bounded (advance : Bool)
    (h : Bounded sub) : Bounded (resetUserSubscription cal plan now advance sub) := by
  unfold resetUserSubscription
  cases advance <;> exact h.zeroed rfl rfl

/-! ## Calls on the subscriptions -/

theorem getPlan_holds : Holds AllBounded (getSubscriptionPlanById id) := by
  exact holds_rejectIf_bind fun _ => holds_get_bind fun s _ => by
    cases s.plans.get? id with
    | none => exact holds_throw _
    | some plan => exact holds_pure plan

/-- What is taken in advance was looked at against the total. -/
theorem preConsumeFrom_holds (now amount : ℤ) (hamount : 0 < amount) :
    ∀ candidates : List UserSubscription, (∀ sub ∈ candidates, Bounded sub) →
      Holds AllBounded (preConsumeFrom cal requestID userID now amount candidates) := by
  intro candidates
  induction candidates with
  | nil => exact fun _ => holds_throw _
  | cons candidate _ ih =>
    intro hcandidates
    refine holds_bind (getPlan_holds _) fun plan => ?_
    refine maybeReset_holds cal plan now (hcandidates candidate List.mem_cons_self) fun sub hsub => ?_
    refine holds_ite (fun _ => ih fun sub' hsub' => hcandidates sub' (List.mem_cons_of_mem _ hsub')) fun hroom => ?_
    refine holds_bind (holds_modify fun s hs => hs.putRecord _) fun _ => ?_
    refine holds_bind (holds_modify fun s hs => hs.putSub ?_) fun _ => holds_pure _
    constructor
    · exact hsub.total
    · intro (hlimited : 0 < sub.amountTotal)
      obtain ⟨hlow, hhigh⟩ := hsub.used hlimited
      have htotal := hsub.total
      -- what is admitted is left over, so the sum needs no more bits than the total
      have hsum : int64 (sub.amountUsed + amount) = sub.amountUsed + amount := by
        refine int64_of_fits ?_
        unfold FitsInt64
        omega
      show 0 ≤ int64 (sub.amountUsed + amount) ∧ int64 (sub.amountUsed + amount) ≤ sub.amountTotal
      omega

theorem activeSubscriptions_bounded (h : AllBounded s) (userID now : ℤ) :
    ∀ sub ∈ activeSubscriptions s userID now, Bounded sub := by
  intro sub hsub
  unfold activeSubscriptions at hsub
  rw [mem_orderBy, mem_orderBy] at hsub
  exact h sub (List.mem_of_mem_filter hsub)

theorem preConsume_holds (amount : ℤ) :
    Holds AllBounded (preConsumeUserSubscription cal now requestID userID amount) := by
  refine holds_rejectIf_bind fun _ => holds_rejectIf_bind fun _ => holds_rejectIf_bind fun hamount => ?_
  refine holds_transaction (holds_get_bind fun s hs => ?_)
  cases s.records.get? requestID with
  | some => exact holds_rejectIf_bind fun _ => holds_require_bind fun sub _ => holds_pure _
  | none =>
    exact holds_rejectIf_bind fun _ => preConsumeFrom_holds cal requestID userID now amount (by omega) _
      (activeSubscriptions_bounded hs userID now)

/-- A settlement is bounded on both sides. -/
theorem postConsume_holds (delta : ℤ) : Holds AllBounded (postConsumeUserSubscriptionDelta id delta) := by
  refine holds_rejectIf_bind fun _ => holds_ite (fun _ => holds_pure _) fun _ => ?_
  refine holds_transaction (holds_get_bind fun s hs => holds_require_bind fun sub hsub => ?_)
  refine holds_rejectIf_bind fun hwithin => holds_modify fun s' hs' => hs'.putSub ?_
  constructor
  · exact (hs.get hsub).total
  · intro (hlimited : 0 < sub.amountTotal)
    show 0 ≤ max (int64 (sub.amountUsed + delta)) 0 ∧ max (int64 (sub.amountUsed + delta)) 0 ≤ sub.amountTotal
    omega

/-- A refund settles what was taken in advance, negated. -/
theorem refund_holds : Holds AllBounded (refundSubscriptionPreConsume requestID) := by
  refine holds_rejectIf_bind fun _ => holds_transaction (holds_get_bind fun s _ => holds_require_bind fun record _ => ?_)
  refine holds_ite (fun _ => holds_pure _) fun _ => holds_ite (fun _ => ?_) fun _ => ?_
  · exact holds_modify fun s hs => hs.putRecord _
  · exact holds_bind (postConsume_holds _ _) fun _ => holds_modify fun s hs => hs.putRecord _

theorem resetDue_holds : Holds AllBounded (resetDueSubscription cal id now) := by
  refine holds_get_bind fun s _ => holds_require_bind fun row _ => holds_bind (getPlan_holds _) fun plan => ?_
  refine holds_transaction (holds_get_bind fun s hs => holds_require_bind fun locked hlocked => ?_)
  exact holds_ite (fun _ => maybeReset_holds cal plan now (hs.get hlocked) fun _ _ => holds_pure ())
    fun _ => holds_pure ()

/-- An administrator resets rows one after the other. -/
theorem adminReset_holds (userID : Option ℤ) (planID : ℤ) (advance : Bool) :
    Holds AllBounded (adminResetSubscriptionsByPlan cal now userID planID advance) := by
  refine holds_rejectIf_bind fun _ => holds_rejectIf_bind fun _ => holds_transaction ?_
  refine holds_bind (getPlan_holds _) fun plan => ?_
  refine holds_get_bind fun s hs => holds_rejectIf_bind fun _ => holds_forEach () fun sub hsub _ => ?_
  rw [mem_orderBy, mem_orderBy, mem_orderBy] at hsub
  have hbounded := hs sub (List.mem_of_mem_filter hsub)
  exact holds_modify fun s hs => hs.putSub (resetUserSubscription_bounded cal plan now advance hbounded)

/-! ## Calls on the members -/

def MembersBounded (s : MemberDB) : Prop := AllBounded s.sub

/-- A step that touches only the subscriptions keeps the bound of the whole. -/
theorem inSubs_holds {α : Type} {m : SubTx α} (hm : Holds AllBounded m) : Holds MembersBounded (inSubs m) := by
  intro s hs
  have hafter := hm s.sub hs
  show AllBounded (inSubs m s).2.sub
  unfold inSubs
  rcases hrun : m s.sub with ⟨e | a, sub'⟩ <;> rwa [hrun] at hafter

theorem newSubscription_bounded (endUnix id userID : ℤ) (plan : SubscriptionPlan)
    (prevGroup : String) : Bounded (newSubscription cal now endUnix id userID plan prevGroup) := by
  have hfits := Int64.toInt_lt plan.totalAmount
  constructor
  · exact hfits
  · intro hlimited
    exact ⟨Int.le_refl 0, Int.le_of_lt hlimited⟩

/-- A new subscription begins with nothing used. -/
theorem bind_holds (planID : ℤ) : Holds MembersBounded (bindSubscription cal now userID planID) := by
  refine holds_transaction (holds_bind (inSubs_holds (getPlan_holds planID)) fun plan => ?_)
  refine holds_rejectIf_bind fun _ => holds_rejectIf_bind fun _ => holds_get_bind fun s _ => ?_
  refine holds_rejectIf_bind fun _ => holds_bind ?_ fun endUnix => holds_ite (fun _ => ?_) fun _ => ?_
  · cases calcPlanEndTime cal now plan with
    | error => exact holds_throw _
    | ok => exact holds_pure _
  · refine holds_bind (holds_modify fun s hs => hs) fun _ => holds_bind (holds_modify fun s hs => ?_) fun _ => holds_pure _
    exact AllBounded.putSub hs (newSubscription_bounded ..)
  · refine holds_bind (holds_modify fun s hs => ?_) fun _ => holds_pure _
    exact AllBounded.putSub hs (newSubscription_bounded ..)

theorem downgrade_bounded {s : MemberDB} (h : MembersBounded s) (now : ℤ) (sub : UserSubscription) :
    MembersBounded (downgradeUserGroup s now sub) := by
  unfold downgradeUserGroup
  cases downgradeTarget s now sub <;> exact h

theorem invalidate_holds : Holds MembersBounded (adminInvalidateUserSubscription id now) := by
  refine holds_rejectIf_bind fun _ => holds_transaction (holds_get_bind fun s hs => holds_require_bind fun sub hsub => ?_)
  refine holds_bind (holds_modify fun s' hs' => ?_) fun _ => holds_modify fun s' hs' => downgrade_bounded hs' now _
  exact AllBounded.putSub hs' ((AllBounded.get hs hsub).same rfl rfl)

theorem delete_holds : Holds MembersBounded (adminDeleteUserSubscription id now) := by
  refine holds_rejectIf_bind fun _ => holds_transaction (holds_get_bind fun s _ => holds_require_bind fun sub _ => ?_)
  refine holds_bind (holds_modify fun s' hs' => downgrade_bounded hs' now _) fun _ => holds_modify fun s' hs' => ?_
  intro row hrow
  exact hs' row (Table.mem_deleteWhere.1 hrow).1

theorem expire_holds (now : ℤ) : Holds MembersBounded (expireUserSubscriptions userID now) := by
  refine holds_transaction (holds_bind (holds_modify fun s hs => ?_) fun _ => holds_modify fun s hs => ?_)
  · intro row hrow
    obtain ⟨old, hold, rfl⟩ := List.mem_map.1 hrow
    split
    · exact (hs old hold).same rfl rfl
    · exact hs old hold
  · cases expiryTarget s userID now <;> exact hs

theorem savePlan_holds : Holds MembersBounded (savePlan knownGroup plan) := by
  refine holds_bind ?_ fun plan => holds_modify fun s hs => hs
  cases admitPlan knownGroup plan with
  | error => exact holds_throw _
  | ok => exact holds_pure _

/-! ## Runs -/

inductive MemberMove where
  | savePlan (knownGroup : String → Bool) (plan : SubscriptionPlan)
  | bind (cal : Calendar) (now userID planID : ℤ)
  | preConsume (cal : Calendar) (now : ℤ) (requestID : String) (userID amount : ℤ)
  | postConsume (id delta : ℤ)
  | refund (requestID : String)
  | resetDue (cal : Calendar) (id now : ℤ)
  | adminReset (cal : Calendar) (now : ℤ) (userID : Option ℤ) (planID : ℤ) (advanceResetTime : Bool)
  | expire (userID now : ℤ)
  | invalidate (id now : ℤ)
  | delete (id now : ℤ)
  | setGroup (userID : ℤ) (group : String)

def MemberMove.exec : MemberMove → MemberTx Unit
  | .savePlan knownGroup plan => NovaMaas.Billing.savePlan knownGroup plan
  | .bind cal now userID planID => drop (bindSubscription cal now userID planID)
  | .preConsume cal now requestID userID amount =>
    inSubs (drop (preConsumeUserSubscription cal now requestID userID amount))
  | .postConsume id delta => inSubs (postConsumeUserSubscriptionDelta id delta)
  | .refund requestID => inSubs (refundSubscriptionPreConsume requestID)
  | .resetDue cal id now => inSubs (resetDueSubscription cal id now)
  | .adminReset cal now userID planID advance => inSubs (adminResetSubscriptionsByPlan cal now userID planID advance)
  | .expire userID now => expireUserSubscriptions userID now
  | .invalidate id now => adminInvalidateUserSubscription id now
  | .delete id now => adminDeleteUserSubscription id now
  | .setGroup userID group => modify (·.setGroup userID group)

/-- No plans, no subscriptions. -/
def MemberDB.fresh (users : Table Member.id) : MemberDB where
  sub   := ⟨Table.empty, Table.empty, Table.empty⟩
  users := users

/-- Every call keeps the bound. -/
theorem exec_holds (move : MemberMove) : Holds MembersBounded move.exec := by
  cases move with
  | savePlan knownGroup plan => exact savePlan_holds knownGroup plan
  | bind cal now userID planID => exact holds_drop (bind_holds cal now userID planID)
  | preConsume cal now requestID userID amount =>
    exact inSubs_holds (holds_drop (preConsume_holds cal now requestID userID amount))
  | postConsume id delta => exact inSubs_holds (postConsume_holds id delta)
  | refund requestID => exact inSubs_holds (refund_holds requestID)
  | resetDue cal id now => exact inSubs_holds (resetDue_holds cal id now)
  | adminReset cal now userID planID advance => exact inSubs_holds (adminReset_holds cal now userID planID advance)
  | expire userID now => exact expire_holds userID now
  | invalidate id now => exact invalidate_holds id now
  | delete id now => exact delete_holds id now
  | setGroup => exact holds_modify fun s hs => hs

/-- Between nothing and the total, whatever the calls, their order and their clocks. -/
theorem usage_bounded (users : Table Member.id) (moves : List MemberMove) (sub : UserSubscription)
    (hsub : sub ∈ (run MemberMove.exec (MemberDB.fresh users) moves).sub.subs.rows) (hlimited : 0 < sub.amountTotal) :
    0 ≤ sub.amountUsed ∧ sub.amountUsed ≤ sub.amountTotal := by
  have hfresh : MembersBounded (MemberDB.fresh users) := fun row hrow => absurd hrow List.not_mem_nil
  have hrun : MembersBounded (run MemberMove.exec (MemberDB.fresh users) moves) :=
    run_invariant (fun move _ => exec_holds move) _ hfresh
  exact (hrun sub hsub).used hlimited

/-- A plan of 100 for a day, a purchase, 60 taken, and 30 more on settling. -/
def oneRun : List MemberMove :=
  let cal := calendarOf (Civil.fixedZone 0)
  [.savePlan (fun _ => true) { id := 1, durationUnit := .day, totalAmount := 100 }, .bind cal 1700000000 7 1,
    .preConsume cal 1700000060 "r" 7 60, .postConsume 1 30]

def oneSub : UserSubscription :=
  { id := 1, userID := 7, planID := 1, amountTotal := 100, amountUsed := 90, startTime := 1700000000,
    endTime := 1700086400, allowWalletOverflow := true }

theorem usage_bounded_one : 0 ≤ oneSub.amountUsed ∧ oneSub.amountUsed ≤ oneSub.amountTotal :=
  usage_bounded Table.empty oneRun oneSub (by decide +kernel) (by decide)

end NovaMaas.Billing
