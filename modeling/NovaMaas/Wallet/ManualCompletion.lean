/-
  What a top-up gives its user when an administrator completes it, against what its provider's callback would have
  given.

  `ManualCompleteTopUp` knows two meanings of an order: Stripe's money, and an amount of units for all others.  Creem's
  amount is a third one, the quota itself; its orders are completed at the price of a unit per point of quota.
-/
import NovaMaas.Wallet.Ceiling

open Option

namespace NovaMaas.Wallet

open Txn
open NovaMaas.Billing (maxWalletQuota)

/-- The completion that a provider's callback runs.  A balance purchase and a mirror have none. -/
def ownCompletion (quotaPerUnit : ℚ) (tradeNo : TradeNo) (method customerId email : String) :
    PaymentProvider → Option (Txn World TopUpError (Option Credit))
  | .epay => some (rechargeEpay quotaPerUnit tradeNo method)
  | .stripe => some (recharge quotaPerUnit tradeNo customerId)
  | .creem => some (rechargeCreem tradeNo email)
  | .waffo => some (rechargeWaffo quotaPerUnit tradeNo)
  | .waffoPancake => some (rechargeWaffoPancake quotaPerUnit tradeNo)
  | .balance | .none => none

/-- What a call adds to the quota of a user. -/
def gain (call : Txn World TopUpError (Option Credit)) (w : World) (userId : ℤ) : ℤ :=
  let quotaIn := fun v : World => (v.users.get? userId).elim 0 (·.quota)
  quotaIn (call w).2 - quotaIn w

/-- The quota is one that can be credited to the user. -/
def creditable (w : World) (userId quota : ℤ) : Bool :=
  decide (0 < quota ∧ quota ≤ maxWalletQuota) &&
    (w.users.get? userId).any fun user => decide (user.quota ≤ maxWalletQuota - quota)

/-- What the manual completion makes of an amount. -/
def amountAsUnits (quotaPerUnit : ℚ) (topUp : TopUp) : ℤ := roundDecimal (topUp.amount * quotaPerUnit)

variable {w : World} {topUp : TopUp} {tradeNo : TradeNo}

theorem positiveQuota_eq_some_iff {x : ℚ} {q : ℤ} :
    positiveQuota x = some q ↔ roundDecimal x = q ∧ 0 < q ∧ q ≤ maxWalletQuota := by
  unfold positiveQuota walletQuotaFromDecimalStrict
  have hmax : (0 : ℤ) ≤ maxWalletQuota := by decide
  rw [filter_eq_some_iff, ite_none_right_eq_some, decide_eq_true_iff]
  constructor
  · rintro ⟨⟨⟨-, hle⟩, heq⟩, hpos⟩
    obtain rfl := some.inj heq
    exact ⟨rfl, hpos, hle⟩
  · rintro ⟨rfl, hpos, hle⟩
    exact ⟨⟨⟨by omega, hle⟩, rfl⟩, hpos⟩

/-- A completion of a pending order credits its quota, if that can be credited, and else changes nothing. -/
theorem completeTopUp_gain {expected : Option PaymentProvider} {repeats : Bool} {quotaOf : TopUp → Option ℤ}
    {method : Option String} {updates : UserUpdates} {x : ℚ} (htopUp : w.topUps.get? tradeNo = some topUp)
    (hpending : topUp.status = .pending) (hexpected : expected = none ∨ expected = some topUp.paymentProvider)
    (hquota : quotaOf topUp = positiveQuota x) :
    gain (completeTopUp expected repeats quotaOf method updates tradeNo) w topUp.userId =
      if creditable w topUp.userId (roundDecimal x) then roundDecimal x else 0 := by
  have hfails : ∀ e, (completeTopUp expected repeats quotaOf method updates tradeNo w) = (.error e, w) →
      gain (completeTopUp expected repeats quotaOf method updates tradeNo) w topUp.userId = 0 := by
    intro e he
    unfold gain
    rw [he]
    exact sub_self _
  cases hq : positiveQuota x with
  | none =>
    have hnot : ¬ (0 < roundDecimal x ∧ roundDecimal x ≤ maxWalletQuota) := by
      intro hin
      rw [positiveQuota_eq_some_iff.mpr ⟨rfl, hin⟩] at hq
      cases hq
    rw [creditable, decide_eq_false hnot]
    refine hfails .invalidQuota ?_
    rw [completeTopUp_run htopUp hpending hexpected, hquota, hq]
    rfl
  | some q =>
    obtain ⟨rfl, hpos, hle⟩ := positiveQuota_eq_some_iff.mp hq
    have hsum : ¬ (roundDecimal x ≤ 0 ∨ maxWalletQuota < roundDecimal x) := by omega
    have hrun := @completeTopUp_run w expected repeats quotaOf method updates tradeNo topUp htopUp hpending hexpected
    rw [hquota, hq, transaction, bind_ok (require_some _ _ _), bind_ok (modify_run _ _), bind_run, creditTopUpQuota,
      bind_ok (rejectIf_neg hsum _ _), bind_ok (get_run _)] at hrun
    rw [creditable, decide_eq_true (And.intro hpos hle), Bool.true_and]
    cases huser : w.users.get? topUp.userId with
    | none =>
      rw [huser] at hrun
      exact hfails .userNotFound hrun
    | some user =>
      rw [huser, bind_ok (require_some _ _ _)] at hrun
      by_cases hroom : maxWalletQuota - roundDecimal x < user.quota
      · rw [any_some, decide_eq_false (not_le.mpr hroom)]
        rw [bind_error (rejectIf_pos hroom _ _)] at hrun
        exact hfails .quotaLimit hrun
      · rw [any_some, decide_eq_true (not_lt.mp hroom)]
        rw [bind_ok (rejectIf_neg hroom _ _), modify_run] at hrun
        have hid : user.id = topUp.userId := (Table.get?_eq_some_iff.mp huser).2
        unfold gain
        rw [hrun, if_pos rfl]
        simp only [huser, Table.get?_put, UserUpdates.apply, hid, if_pos, elim_some, pure_run]
        omega

theorem roundDecimal_intCast (n : ℤ) : roundDecimal n = n := by
  have hhalf : ⌊(1 / 2 : ℚ)⌋ = 0 := by norm_num
  unfold roundDecimal
  split
  · rw [← Int.cast_neg, Int.floor_intCast_add, hhalf]
    omega
  · rw [Int.floor_intCast_add, hhalf]
    omega

/-- **Manual completion credits what the callback would, unless the order is Creem's.**  Then it does if a unit is one
point of quota, as far as the rounding goes, or if neither quota can be credited. -/
theorem manual_completion_iff {quotaPerUnit : ℚ} {method customerId email : String}
    {own : Txn World TopUpError (Option Credit)} (htopUp : w.topUps.get? tradeNo = some topUp)
    (hpending : topUp.status = .pending)
    (hown : ownCompletion quotaPerUnit tradeNo method customerId email topUp.paymentProvider = some own) :
    gain (manualCompleteTopUp quotaPerUnit tradeNo) w topUp.userId = gain own w topUp.userId ↔
      (topUp.paymentProvider = .creem → amountAsUnits quotaPerUnit topUp = topUp.amount ∨
        creditable w topUp.userId (amountAsUnits quotaPerUnit topUp) = false ∧
          creditable w topUp.userId topUp.amount = false) := by
  cases hprovider : topUp.paymentProvider with
  | balance | none =>
    rw [hprovider] at hown
    cases hown
  | stripe =>
    rw [hprovider] at hown
    obtain rfl := some.inj hown
    unfold manualCompleteTopUp recharge
    rw [completeTopUp_gain htopUp hpending (Or.inl rfl) (if_pos hprovider),
      completeTopUp_gain htopUp hpending (Or.inr (congrArg some hprovider.symm)) rfl]
    exact iff_of_true rfl nofun
  | epay | waffo | waffoPancake =>
    rw [hprovider] at hown
    obtain rfl := some.inj hown
    unfold manualCompleteTopUp
    rw [completeTopUp_gain htopUp hpending (Or.inl rfl) (if_neg (by rw [hprovider]; exact nofun))]
    refine iff_of_true (Eq.symm ?_) nofun
    exact completeTopUp_gain htopUp hpending (Or.inr (congrArg some hprovider.symm)) rfl
  | creem =>
    rw [hprovider] at hown
    obtain rfl := some.inj hown
    unfold manualCompleteTopUp rechargeCreem
    rw [completeTopUp_gain htopUp hpending (Or.inl rfl) (if_neg (by rw [hprovider]; exact nofun)),
      completeTopUp_gain htopUp hpending (Or.inr (congrArg some hprovider.symm)) rfl, roundDecimal_intCast]
    show (if creditable w topUp.userId (amountAsUnits quotaPerUnit topUp) = true then
      amountAsUnits quotaPerUnit topUp else 0) = _ ↔ _
    have hpos : ∀ q, creditable w topUp.userId q = true → 0 < q := fun q hq =>
      (of_decide_eq_true (Bool.and_elim_left hq)).1
    have hunits := hpos (amountAsUnits quotaPerUnit topUp)
    have hamount := hpos topUp.amount
    cases hleft : creditable w topUp.userId (amountAsUnits quotaPerUnit topUp) with
    | true =>
      have hunits := hunits hleft
      cases hright : creditable w topUp.userId topUp.amount with
      | true => simp
      | false =>
        simp only [if_pos, Bool.false_eq_true, if_false]
        refine iff_of_false (by omega) fun h => ?_
        rcases h trivial with hsame | ⟨hno, -⟩
        · rw [hsame, hright] at hleft
          cases hleft
        · cases hno
    | false =>
      cases hright : creditable w topUp.userId topUp.amount with
      | true =>
        have hamount := hamount hright
        simp only [if_pos, Bool.false_eq_true, if_false]
        refine iff_of_false (by omega) fun h => ?_
        rcases h trivial with hsame | ⟨-, hno⟩
        · rw [hsame, hright] at hleft
          cases hleft
        · cases hno
      | false => simp

/-- One order, of one user. -/
def oneOrder (topUp : TopUp) : World := { oneWallet 0 with topUps := Table.empty.put topUp }

def creemOrder : TopUp := ⟨.topUp "CREEM-1", 1, 1000, 5, "creem", .creem, .pending⟩

/-- Two units by Waffo. -/
theorem manual_completion_waffo :
    gain (manualCompleteTopUp 500000 (.topUp "WAFFO-2")) (oneOrder ⟨.topUp "WAFFO-2", 1, 2, 2, "card", .waffo, .pending⟩) 1 =
      gain (rechargeWaffo 500000 (.topUp "WAFFO-2")) (oneOrder ⟨.topUp "WAFFO-2", 1, 2, 2, "card", .waffo, .pending⟩) 1 := by
  have htopUp : (oneOrder ⟨.topUp "WAFFO-2", 1, 2, 2, "card", .waffo, .pending⟩).topUps.get? (.topUp "WAFFO-2") =
      some ⟨.topUp "WAFFO-2", 1, 2, 2, "card", .waffo, .pending⟩ := Table.get?_put_self _ _
  exact (@manual_completion_iff _ _ _ 500000 "" "" "" _ htopUp rfl rfl).mpr nofun

/-- A thousand points of quota by Creem, completed as a thousand units. -/
theorem manual_completion_creem : ¬ ∀ (quotaPerUnit : ℚ) (w : World) (tradeNo : TradeNo) (topUp : TopUp)
    (method customerId email : String) (own : Txn World TopUpError (Option Credit)),
    w.topUps.get? tradeNo = some topUp → topUp.status = .pending →
    ownCompletion quotaPerUnit tradeNo method customerId email topUp.paymentProvider = some own →
    gain (manualCompleteTopUp quotaPerUnit tradeNo) w topUp.userId = gain own w topUp.userId := by
  intro h
  have hsame := h 500000 (oneOrder creemOrder) (.topUp "CREEM-1") creemOrder "" "" "" _ (Table.get?_put_self _ _) rfl rfl
  revert hsame
  decide +kernel

end NovaMaas.Wallet
