/-
  The ceiling of a wallet over every run.

  Most increases look at the wallet in the statement that adds to it.  Four do not: a check-in in a transaction, a transfer
  of the quota from invitations, an increase that is only recorded for a batch, and the write of a batch.  So the ceiling
  holds along a run, and what exceeds it is rejected, exactly if these find room for what they add (`ceiling_iff`).
-/
import NovaMaas.Wallet.Increases

open Option

namespace NovaMaas.Wallet

open Txn Table
open NovaMaas.Billing (maxWalletQuota)

/-! ## A call that fails leaves the world as it was -/

theorem increaseUserQuotaDB_atomic (id quota : ℤ) : Atomic (increaseUserQuotaDB id quota) :=
  atomic_get_bind fun _ => atomic_require_bind fun _ => atomic_rejectIf_bind (atomic_modify _)

theorem increaseUserQuota_atomic (env : WalletEnv) (id quota : ℤ) (db : Bool) :
    Atomic (increaseUserQuota env id quota db) := by
  refine atomic_rejectIf_bind (atomic_rejectIf_bind (atomic_bind_pure ?_ none))
  exact atomic_ite (atomic_modify _) (increaseUserQuotaDB_atomic id quota)

variable {w : World} {checkin : Checkin}

theorem createCheckin_taken (htaken : (w.checkins.get? checkin.day).isSome = true) :
    createCheckin checkin w = (.error .taken, w) :=
  show (rejectIf _ _ >>= _) w = _ from bind_error (rejectIf_pos htaken _ _)

theorem createCheckin_free (hfree : ¬ (w.checkins.get? checkin.day).isSome = true) :
    createCheckin checkin w = (.ok (), { w with checkins := w.checkins.put checkin }) :=
  bind_ok (rejectIf_neg hfree _ _)

/-- What a failing award leaves behind is undone. -/
theorem userCheckinWithoutTransaction_atomic (env : WalletEnv) (checkin : Checkin) :
    Atomic (userCheckinWithoutTransaction env checkin) := by
  intro w e w' hrun
  unfold userCheckinWithoutTransaction at hrun
  by_cases htaken : (w.checkins.get? checkin.day).isSome = true
  · rw [bind_error (createCheckin_taken htaken)] at hrun
    cases hrun
    rfl
  · rw [bind_ok (createCheckin_free htaken)] at hrun
    unfold orUndo at hrun
    rcases hincrease : increaseUserQuota env checkin.userId checkin.quotaAwarded true
      { w with checkins := w.checkins.put checkin } with ⟨e' | a, w''⟩
    · rw [hincrease] at hrun
      cases hrun
      rw [increaseUserQuota_atomic env _ _ true _ _ _ hincrease]
      have hfresh : ∀ row ∈ w.checkins.rows, Checkin.day row ≠ checkin.day ∧ decide (row.day = checkin.day) = false := by
        intro row hrow
        have hne : row.day ≠ checkin.day := by
          intro heq
          rw [← heq, get?_of_mem hrow] at htaken
          exact htaken rfl
        exact ⟨hne, decide_eq_false hne⟩
      have hundone : (w.checkins.put checkin).deleteWhere (fun row => decide (row.day = checkin.day)) = w.checkins :=
        deleteWhere_put_of_fresh (decide_eq_true rfl) hfresh
      show { w with checkins := _ } = w
      rw [hundone]
    · rw [hincrease] at hrun
      cases hrun

/-- Whatever the call, an error changes nothing. -/
theorem op_atomic (env : WalletEnv) (call : WalletCall) : Atomic (call.op env) := by
  cases call with
  | insertTopUp | insertSubscriptionOrder =>
    exact atomic_get_bind fun _ => atomic_rejectIf_bind (atomic_bind_pure (atomic_modify _) none)
  | rechargeEpay | recharge | rechargeCreem
  | rechargeWaffo | rechargeWaffoPancake | manualCompleteTopUp
  | updatePendingTopUpStatus | redeem
  | completeSubscriptionOrder | expireSubscriptionOrder
  | adjustWallet => exact atomic_transaction _
  | readFailedTopUp =>
    exact atomic_get_bind fun _ => atomic_require_bind fun _ => atomic_rejectIf_bind
      (atomic_rejectIf_bind (atomic_bind_pure (atomic_modify _) none))
  | saveFailedTopUp | readRedemption | saveFailedOrder | writeBatch =>
    exact atomic_get_bind fun _ => atomic_require_bind fun _ => atomic_bind_pure (atomic_modify _) none
  | insertRedemption =>
    exact atomic_rejectIf_bind (atomic_get_bind fun _ => atomic_rejectIf_bind (atomic_bind_pure (atomic_modify _) none))
  | saveRedemption =>
    exact atomic_get_bind fun _ => atomic_require_bind fun _ => atomic_ofExcept_bind fun _ => atomic_require_bind fun _ =>
      atomic_bind_pure (atomic_modify _) none
  | increaseUserQuota id quota db => exact increaseUserQuota_atomic env id quota db
  | decreaseUserQuota =>
    refine atomic_rejectIf_bind (atomic_bind_pure ?_ none)
    exact atomic_ite (atomic_modify _) (atomic_modify _)
  | takeBatch => exact atomic_bind_pure (atomic_modify _) none
  | userCheckin checkin =>
    exact atomic_ite (userCheckinWithoutTransaction_atomic env checkin) (atomic_transaction _)
  | transferAffQuotaToQuota => exact atomic_rejectIf_bind (atomic_transaction _)

/-! ## What a call asks for -/

/-- The increase that completes a top-up. -/
def asksTopUp (expected : Option PaymentProvider) (quotaOf : TopUp → Option ℤ) (tradeNo : TradeNo) (w : World) :
    Option (ℤ × ℤ) :=
  (w.topUps.get? tradeNo).bind fun topUp =>
    if (expected = none ∨ expected = some topUp.paymentProvider) ∧ topUp.status = .pending then
      (quotaOf topUp).map fun quota => (topUp.userId, quota)
    else none

/-- Whose wallet a call asks to increase, and by what: an order that is to be completed, a code that is to be redeemed, a
    day without a check-in, an event that the ledger does not know, and what is recorded for a batch or written from it. -/
def WalletCall.asks (env : WalletEnv) (w : World) : WalletCall → Option (ℤ × ℤ)
  | .rechargeEpay tradeNo _ => asksTopUp (some .epay) (amountQuota env.quotaPerUnit) tradeNo w
  | .recharge tradeNo _ => asksTopUp (some .stripe) (moneyQuota env.quotaPerUnit) tradeNo w
  | .rechargeCreem tradeNo _ => asksTopUp (some .creem) (fun topUp => positiveQuota topUp.amount) tradeNo w
  | .rechargeWaffo tradeNo => asksTopUp (some .waffo) (amountQuota env.quotaPerUnit) tradeNo w
  | .rechargeWaffoPancake tradeNo => asksTopUp (some .waffoPancake) (amountQuota env.quotaPerUnit) tradeNo w
  | .manualCompleteTopUp tradeNo => asksTopUp none
    (fun topUp =>
      if topUp.paymentProvider = .stripe then moneyQuota env.quotaPerUnit topUp else amountQuota env.quotaPerUnit topUp)
    tradeNo w
  | .redeem key userId now => (w.redemptions.get? key).bind fun r =>
    if r.status = .enabled ∧ ¬ (r.expiredTime ≠ 0 ∧ r.expiredTime < now) then some (userId, r.quota) else none
  | .increaseUserQuota id quota _ => some (id, quota)
  | .writeBatch entry => w.flush[entry]?
  | .userCheckin checkin =>
    if (w.checkins.get? checkin.day).isSome then none else some (checkin.userId, checkin.quotaAwarded)
  | .adjustWallet userId delta ledger => if ledger.known then none else some (userId, delta)
  | .transferAffQuotaToQuota userId quota => (w.users.get? userId).bind fun user =>
    if (quota : ℚ) < env.quotaPerUnit ∨ user.affQuota < quota then none else some (userId, quota)
  | _ => none

/-- Every increase that a call asks for, and that goes beyond the ceiling, is rejected and changes nothing. -/
def Rejected (env : WalletEnv) (w : World) (call : WalletCall) : Prop :=
  ∀ id quota user, call.asks env w = some (id, quota) → w.users.get? id = some user → maxWalletQuota < user.quota + quota →
    ∃ e, call.op env w = (.error e, w)

/-- No wallet is beyond the ceiling. -/
def Below (w : World) : Prop := ∀ user ∈ w.users.rows, user.quota ≤ maxWalletQuota

/-- The call looks at the wallet, or adds more than any wallet may hold and is rejected for that. -/
def WalletCall.looks (env : WalletEnv) : WalletCall → Bool
  | .increaseUserQuota _ quota db => db || !env.batchUpdateEnabled || decide (maxWalletQuota < quota)
  | .userCheckin _ => env.sqlite
  | .writeBatch _ => false
  | .transferAffQuotaToQuota _ _ => false
  | _ => true

/-- A call that does not look finds room for what it adds. -/
def Fits (env : WalletEnv) (w : World) (call : WalletCall) : Prop :=
  call.looks env = true ∨ ∀ id quota user, call.asks env w = some (id, quota) → w.users.get? id = some user →
    user.quota + quota ≤ maxWalletQuota

/-! ## Calls that look -/

/-- What is below stays below. -/
def StaysBelow (w w' : World) : Prop := Below w → Below w'

instance : IsPreorder World StaysBelow where
  refl _ h := h
  trans _ _ _ h h' := h' ∘ h

theorem staysBelow_of_users {w w' : World} (h : w'.users = w.users) : StaysBelow w w' := by
  intro hbelow
  unfold Below
  rw [h]
  exact hbelow

/-- A last statement that leaves the users alone. -/
theorem keeps_write {f : World → World} {credit : Option Credit} (h : ∀ w, (f w).users = w.users) :
    Keeps StaysBelow (modify f >>= fun _ => pure credit : Txn World TopUpError _) :=
  keeps_bind (keeps_modify fun w => staysBelow_of_users (h w)) fun _ => keeps_pure credit

variable {user : User}

theorem below_put {w' : World} (hbelow : Below w) (hquota : user.quota ≤ maxWalletQuota)
    (h : w'.users = w.users.put user) : Below w' := by
  intro row hrow
  rw [h] at hrow
  rcases mem_put.1 hrow with rfl | ⟨hmem, -⟩
  · exact hquota
  · exact hbelow row hmem

variable {id : ℤ}

theorem below_addQuota {delta : ℤ} (hbelow : Below w)
    (hroom : ∀ user, w.users.get? id = some user → user.quota + delta ≤ maxWalletQuota) : Below (addQuota id delta w) := by
  unfold addQuota
  cases hget : w.users.get? id with
  | none => exact hbelow
  | some user => exact below_put hbelow (hroom user hget) rfl

theorem creditTopUpQuota_keeps (userId quota : ℤ) (updates : UserUpdates) :
    Keeps StaysBelow (creditTopUpQuota userId quota updates) := by
  intro w
  unfold creditTopUpQuota
  simp only [wp_bind, wp_get, wp_require, wp_rejectIf, wp_modify]
  intro _ user _ hroom hbelow
  refine below_put hbelow ?_ rfl
  show user.quota + quota ≤ maxWalletQuota
  omega

theorem completeTopUp_keeps (expected : Option PaymentProvider) (repeats : Bool) (quotaOf : TopUp → Option ℤ)
    (method : Option String) (updates : UserUpdates) (tradeNo : TradeNo) :
    Keeps StaysBelow (completeTopUp expected repeats quotaOf method updates tradeNo) := by
  refine keeps_transaction (keeps_bind keeps_get fun w => keeps_require_bind fun topUp => keeps_rejectIf_bind ?_)
  refine keeps_ite (keeps_pure none) (keeps_rejectIf_bind (keeps_require_bind fun quota => ?_))
  refine keeps_bind (keeps_modify fun _ => staysBelow_of_users rfl) fun _ => ?_
  exact keeps_bind (creditTopUpQuota_keeps topUp.userId quota updates) fun _ => keeps_pure _

theorem increaseUserQuotaDB_keeps (id quota : ℤ) : Keeps StaysBelow (increaseUserQuotaDB id quota) := by
  intro w
  unfold increaseUserQuotaDB
  simp only [wp_bind, wp_get, wp_require, wp_rejectIf, wp_modify]
  intro user huser hroom hbelow
  refine below_addQuota hbelow ?_
  intro row hrow
  rw [huser] at hrow
  obtain rfl := some.inj hrow
  omega

theorem increaseUserQuota_keeps (env : WalletEnv) (id quota : ℤ) (db : Bool) :
    Keeps StaysBelow (increaseUserQuota env id quota db) := by
  refine keeps_rejectIf_bind (keeps_rejectIf_bind (keeps_bind ?_ fun _ => keeps_pure none))
  exact keeps_ite (keeps_modify fun _ => staysBelow_of_users rfl) (increaseUserQuotaDB_keeps id quota)

theorem createCheckin_keeps (checkin : Checkin) : Keeps StaysBelow (createCheckin checkin) :=
  keeps_bind keeps_get fun _ => keeps_rejectIf_bind (keeps_modify fun _ => staysBelow_of_users rfl)

theorem keeps_orUndo {α : Type} {R : World → World → Prop} {m : Txn World TopUpError α} (hm : Keeps R m)
    (undo : World → World) : Keeps R (orUndo m undo) := by
  intro w a w' hrun
  unfold orUndo at hrun
  rcases hms : m w with ⟨e | b, w''⟩
  · rw [hms] at hrun
    cases hrun
  · rw [hms] at hrun
    cases hrun
    exact hm w a w' hms

theorem completeSubscriptionOrder_users (tradeNo : TradeNo) (payload : String) (expected : Option PaymentProvider)
    (method : String) (plan : PlanAnswer) (w : World) :
    wp (completeSubscriptionOrder tradeNo payload expected method plan) (fun _ w' => w'.users = w.users) w := by
  have hupsert : ∀ order w, wp (upsertSubscriptionTopUpTx order) (fun _ w' => w'.users = w.users) w := by
    intro order w
    unfold upsertSubscriptionTopUpTx
    rw [wp_bind, wp_get]
    cases w.topUps.get? order.tradeNo with
    | none => exact (wp_modify _ _ _).2 rfl
    | some =>
      simp only [wp_bind, wp_rejectIf, wp_modify]
      exact fun _ => trivial
  unfold completeSubscriptionOrder
  simp only [wp_transaction, wp_bind, wp_get, wp_require, wp_rejectIf, wp_ite, wp_pure, wp_modify]
  intro order _ _
  refine ⟨fun _ => trivial, fun _ _ _ _ _ => ?_⟩
  exact wp_mono (hupsert order _) fun _ _ h => h

variable {call : WalletCall}

/-- A call that looks, or that adds nothing, keeps to the ceiling. -/
theorem op_keeps (env : WalletEnv) (hlooks : call.looks env = true) : Keeps StaysBelow (call.op env) := by
  cases call with
  | insertTopUp | insertSubscriptionOrder =>
    exact keeps_bind keeps_get fun _ => keeps_rejectIf_bind (keeps_write fun _ => rfl)
  | rechargeEpay | recharge | rechargeCreem
  | rechargeWaffo | rechargeWaffoPancake | manualCompleteTopUp =>
    exact completeTopUp_keeps _ _ _ _ _ _
  | updatePendingTopUpStatus =>
    exact keeps_transaction (keeps_bind keeps_get fun _ => keeps_require_bind fun _ => keeps_rejectIf_bind
      (keeps_rejectIf_bind (keeps_write fun _ => rfl)))
  | readFailedTopUp =>
    exact keeps_bind keeps_get fun _ => keeps_require_bind fun _ => keeps_rejectIf_bind (keeps_rejectIf_bind
      (keeps_write fun _ => rfl))
  | saveFailedTopUp | readRedemption | saveFailedOrder =>
    exact keeps_bind keeps_get fun _ => keeps_require_bind fun _ =>
      keeps_write fun _ => rfl
  | insertRedemption =>
    exact keeps_rejectIf_bind (keeps_bind keeps_get fun _ => keeps_rejectIf_bind
      (keeps_write fun _ => rfl))
  | redeem _ userId =>
    refine keeps_transaction (keeps_bind keeps_get fun _ => keeps_require_bind fun redemption => keeps_rejectIf_bind
      (keeps_rejectIf_bind (keeps_bind (keeps_modify fun _ => staysBelow_of_users rfl) fun _ => ?_)))
    exact keeps_bind (creditTopUpQuota_keeps userId redemption.quota {}) fun _ => keeps_pure _
  | saveRedemption =>
    exact keeps_bind keeps_get fun _ => keeps_require_bind fun _ => keeps_ofExcept_bind fun _ =>
      keeps_require_bind fun _ => keeps_write fun _ => rfl
  | completeSubscriptionOrder tradeNo payload expected method plan =>
    intro w a w' hrun
    exact staysBelow_of_users (completeSubscriptionOrder_users tradeNo payload expected method plan w a w' hrun)
  | expireSubscriptionOrder =>
    exact keeps_transaction (keeps_bind keeps_get fun _ => keeps_require_bind fun _ => keeps_rejectIf_bind
      (keeps_ite (keeps_pure none) (keeps_write fun _ => rfl)))
  | increaseUserQuota id quota db => exact increaseUserQuota_keeps env id quota db
  | decreaseUserQuota id quota db =>
    intro w
    show wp (decreaseUserQuota env id quota db) _ w
    unfold decreaseUserQuota
    simp only [wp_bind, wp_rejectIf, wp_ite, wp_modify, wp_pure]
    intro hquota
    refine ⟨fun _ => staysBelow_of_users rfl, fun _ hbelow => below_addQuota hbelow ?_⟩
    intro user huser
    have hle := hbelow user (mem_of_get? huser)
    omega
  | takeBatch => exact keeps_write fun _ => rfl
  | userCheckin checkin =>
    have hsqlite : env.sqlite = true := hlooks
    show Keeps StaysBelow (userCheckin env checkin)
    unfold userCheckin
    rw [if_pos hsqlite]
    exact keeps_bind (createCheckin_keeps checkin) fun _ => keeps_orUndo (increaseUserQuota_keeps env _ _ true) _
  | adjustWallet userId delta ledger =>
    intro w
    show wp (adjustWallet userId delta ledger) _ w
    unfold adjustWallet
    simp only [wp_transaction, wp_bind, wp_get, wp_require, wp_ite, wp_pure, wp_rejectIf, wp_modify]
    intro user huser
    refine ⟨fun _ => staysBelow_of_users rfl, fun _ hroom _ hbelow => below_addQuota hbelow ?_⟩
    intro row hrow
    rw [huser] at hrow
    obtain rfl := some.inj hrow
    omega
  | writeBatch => cases hlooks
  | transferAffQuotaToQuota => cases hlooks

/-! ## What exceeds the ceiling -/

variable {quota userId : ℤ}

theorem creditTopUpQuota_full {updates : UserUpdates} (huser : w.users.get? userId = some user)
    (hfull : maxWalletQuota < user.quota + quota) :
    ∃ e, creditTopUpQuota userId quota updates w = (.error e, w) := by
  unfold creditTopUpQuota
  by_cases hquota : quota ≤ 0 ∨ maxWalletQuota < quota
  · exact ⟨_, bind_error (rejectIf_pos hquota _ _)⟩
  · rw [bind_ok (rejectIf_neg hquota _ _), bind_ok (get_run w), huser, bind_ok (require_some _ _ _)]
    exact ⟨_, bind_error (rejectIf_pos (by omega) _ _)⟩

theorem increaseUserQuotaDB_full (huser : w.users.get? id = some user)
    (hfull : maxWalletQuota < user.quota + quota) : ∃ e, increaseUserQuotaDB id quota w = (.error e, w) := by
  unfold increaseUserQuotaDB
  rw [bind_ok (get_run w), huser, bind_ok (require_some _ _ _)]
  exact ⟨_, bind_error (rejectIf_pos (by omega) _ _)⟩

variable {env : WalletEnv}

theorem increaseUserQuota_full {db : Bool}
    (hlooks : (db || !env.batchUpdateEnabled || decide (maxWalletQuota < quota)) = true)
    (huser : w.users.get? id = some user) (hfull : maxWalletQuota < user.quota + quota) :
    ∃ e, increaseUserQuota env id quota db w = (.error e, w) := by
  unfold increaseUserQuota
  by_cases hneg : quota < 0
  · exact ⟨_, bind_error (rejectIf_pos hneg _ _)⟩
  rw [bind_ok (rejectIf_neg hneg _ _)]
  by_cases hlarge : maxWalletQuota < quota
  · exact ⟨_, bind_error (rejectIf_pos hlarge _ _)⟩
  have hdirect : ¬ (db = false ∧ env.batchUpdateEnabled = true) := by
    rintro ⟨rfl, hbatch⟩
    rw [hbatch, decide_eq_false hlarge] at hlooks
    cases hlooks
  rw [bind_ok (rejectIf_neg hlarge _ _), if_neg hdirect]
  obtain ⟨e, he⟩ := increaseUserQuotaDB_full huser hfull
  exact ⟨e, bind_error he⟩

variable {expected : Option PaymentProvider} {repeats : Bool} {quotaOf : TopUp → Option ℤ} {method : Option String}
  {updates : UserUpdates} {tradeNo : TradeNo}

/-- The completion of a pending order, after its checks. -/
theorem completeTopUp_run {topUp : TopUp} (htopUp : w.topUps.get? tradeNo = some topUp)
    (hpending : topUp.status = .pending) (hexpected : expected = none ∨ expected = some topUp.paymentProvider) :
    completeTopUp expected repeats quotaOf method updates tradeNo w = transaction (do
      let quota ← require (quotaOf topUp) .invalidQuota
      modify fun w => { w with
        topUps := w.topUps.put { topUp with status := .success, paymentMethod := method.getD topUp.paymentMethod } }
      creditTopUpQuota topUp.userId quota updates
      pure (some ⟨topUp.userId, quota⟩)) w := by
  have hmatch : ¬ (expected ≠ none ∧ expected ≠ some topUp.paymentProvider) := by tauto
  have hopen : ¬ (topUp.status = .success ∧ repeats = true) := by
    rw [hpending]
    rintro ⟨h, -⟩
    cases h
  unfold completeTopUp transaction
  rw [bind_ok (get_run w), htopUp, bind_ok (require_some _ _ _), bind_ok (rejectIf_neg hmatch _ _), if_neg hopen,
    bind_ok (rejectIf_neg (not_not.2 hpending) _ _)]

theorem completeTopUp_full
    (hasks : asksTopUp expected quotaOf tradeNo w = some (id, quota)) (huser : w.users.get? id = some user)
    (hfull : maxWalletQuota < user.quota + quota) :
    ∃ e, completeTopUp expected repeats quotaOf method updates tradeNo w = (.error e, w) := by
  unfold asksTopUp at hasks
  rw [bind_eq_some_iff] at hasks
  obtain ⟨topUp, htopUp, hasks⟩ := hasks
  rw [ite_none_right_eq_some, map_eq_some_iff] at hasks
  obtain ⟨⟨hprovider, hpending⟩, quota', hquota, heq⟩ := hasks
  obtain ⟨rfl, rfl⟩ := Prod.mk.inj heq
  obtain ⟨e, he⟩ : ∃ e, creditTopUpQuota topUp.userId quota' updates { w with
      topUps := w.topUps.put { topUp with status := .success, paymentMethod := method.getD topUp.paymentMethod } } =
        (.error e, _) := creditTopUpQuota_full huser hfull
  refine ⟨e, ?_⟩
  rw [completeTopUp_run htopUp hpending hprovider, hquota]
  apply transaction_error
  rw [bind_ok (require_some _ _ _), bind_ok (modify_run _ _)]
  exact bind_error he

theorem redeem_full {key : String} {now : ℤ} {redemption : Redemption}
    (hget : w.redemptions.get? key = some redemption) (henabled : redemption.status = .enabled)
    (hvalid : ¬ (redemption.expiredTime ≠ 0 ∧ redemption.expiredTime < now)) (huser : w.users.get? userId = some user)
    (hfull : maxWalletQuota < user.quota + redemption.quota) : ∃ e, redeem key userId now w = (.error e, w) := by
  obtain ⟨e, he⟩ : ∃ e, creditTopUpQuota userId redemption.quota {} { w with
      redemptions := w.redemptions.put { redemption with status := .used, usedUserId := userId } } = (.error e, _) :=
    creditTopUpQuota_full huser hfull
  refine ⟨e, ?_⟩
  apply transaction_error
  rw [bind_ok (get_run w), hget, bind_ok (require_some _ _ _), bind_ok (rejectIf_neg (not_not.2 henabled) _ _),
    bind_ok (rejectIf_neg hvalid _ _), bind_ok (modify_run _ _)]
  exact bind_error he

theorem adjustWallet_full {delta : ℤ} {ledger : LedgerAnswer} (hknown : ledger.known ≠ true)
    (huser : w.users.get? userId = some user)
    (hfull : maxWalletQuota < user.quota + delta) : ∃ e, adjustWallet userId delta ledger w = (.error e, w) := by
  have hlimit : maxWalletQuota < delta ∨ delta < -maxWalletQuota ∨ maxWalletQuota - delta < user.quota ∨
      user.quota < -maxWalletQuota - delta := by
    omega
  refine ⟨.quotaLimit, ?_⟩
  apply transaction_error
  rw [bind_ok (get_run w), huser, bind_ok (require_some _ _ _), if_neg hknown]
  exact bind_error (rejectIf_pos hlimit _ _)

theorem userCheckin_full (hsqlite : env.sqlite = true)
    (huser : w.users.get? checkin.userId = some user) (hfull : maxWalletQuota < user.quota + checkin.quotaAwarded) :
    ∃ e, userCheckin env checkin w = (.error e, w) := by
  have hatomic := userCheckinWithoutTransaction_atomic env checkin w
  unfold userCheckin
  rw [if_pos hsqlite]
  rcases hrun : userCheckinWithoutTransaction env checkin w with ⟨e | a, w'⟩
  · rw [hatomic e w' hrun]
    exact ⟨e, rfl⟩
  · -- the award is looked at after the row of the check-in is there
    unfold userCheckinWithoutTransaction at hrun
    by_cases htaken : (w.checkins.get? checkin.day).isSome = true
    · rw [bind_error (createCheckin_taken htaken)] at hrun
      cases hrun
    · obtain ⟨e, he⟩ : ∃ e, increaseUserQuota env checkin.userId checkin.quotaAwarded true
          { w with checkins := w.checkins.put checkin } = (.error e, _) := increaseUserQuota_full rfl huser hfull
      rw [bind_ok (createCheckin_free htaken)] at hrun
      unfold orUndo at hrun
      rw [he] at hrun
      cases hrun

/-- A call that looks rejects what exceeds the ceiling. -/
theorem rejected_of_looks (hlooks : call.looks env = true) : Rejected env w call := by
  intro id quota user hasks huser hfull
  cases call with
  | rechargeEpay | recharge | rechargeCreem
  | rechargeWaffo | rechargeWaffoPancake | manualCompleteTopUp =>
    exact completeTopUp_full hasks huser hfull
  | redeem =>
    obtain ⟨redemption, hget, hasks⟩ := bind_eq_some_iff.1 hasks
    obtain ⟨⟨henabled, hvalid⟩, heq⟩ := ite_none_right_eq_some.1 hasks
    cases heq
    exact redeem_full hget henabled hvalid huser hfull
  | increaseUserQuota =>
    cases hasks
    exact increaseUserQuota_full hlooks huser hfull
  | userCheckin =>
    obtain ⟨-, heq⟩ := ite_none_left_eq_some.1 hasks
    cases heq
    exact userCheckin_full hlooks huser hfull
  | adjustWallet =>
    obtain ⟨hknown, heq⟩ := ite_none_left_eq_some.1 hasks
    cases heq
    exact adjustWallet_full hknown huser hfull
  | writeBatch => cases hlooks
  | transferAffQuotaToQuota => cases hlooks
  | _ => cases hasks

/-! ## Calls that do not look -/

theorem asks_transfer {q : ℤ}
    (hasks : (WalletCall.transferAffQuotaToQuota userId quota).asks env w = some (id, q)) :
    ∃ user, w.users.get? userId = some user ∧ ¬ (quota : ℚ) < env.quotaPerUnit ∧ ¬ user.affQuota < quota ∧
      id = userId ∧ q = quota := by
  obtain ⟨user, huser, hasks⟩ := bind_eq_some_iff.1 hasks
  obtain ⟨hchecks, heq⟩ := ite_none_left_eq_some.1 hasks
  cases heq
  exact ⟨user, huser, fun h => hchecks (Or.inl h), fun h => hchecks (Or.inr h), rfl, rfl⟩

/-- A call that does not look succeeds, whatever the room. -/
theorem ok_of_not_looks (hbelow : Below w) (hlooks : call.looks env ≠ true)
    (hasks : call.asks env w = some (id, quota)) (huser : w.users.get? id = some user)
    (hfull : maxWalletQuota < user.quota + quota) :
    ∃ w', call.op env w = (.ok none, w') := by
  have hle := hbelow user (mem_of_get? huser)
  cases call with
  | increaseUserQuota _ _ db =>
    cases hasks
    have hpos : ¬ quota < 0 := by omega
    have hlooks' : (db || !env.batchUpdateEnabled || decide (maxWalletQuota < quota)) ≠ true := hlooks
    simp only [ne_eq, Bool.or_eq_true, Bool.not_eq_true', decide_eq_true_eq, not_or, Bool.not_eq_true,
      Bool.not_eq_false] at hlooks'
    refine ⟨addNewRecord id quota w, ?_⟩
    show increaseUserQuota env id quota db w = _
    unfold increaseUserQuota
    rw [bind_ok (rejectIf_neg hpos _ _), bind_ok (rejectIf_neg hlooks'.2 _ _), if_pos hlooks'.1,
      bind_ok (modify_run _ _)]
    rfl
  | writeBatch entry =>
    have hentry : w.flush[entry]? = some (id, quota) := hasks
    refine ⟨{ addQuota id quota w with flush := w.flush.eraseIdx entry }, ?_⟩
    show writeBatch entry w = _
    unfold writeBatch
    rw [bind_ok (get_run w), hentry, bind_ok (require_some _ _ _), bind_ok (modify_run _ _)]
    rfl
  | userCheckin checkin =>
    obtain ⟨hfree, heq⟩ := ite_none_left_eq_some.1 hasks
    cases heq
    have hsqlite : env.sqlite ≠ true := hlooks
    refine ⟨addQuota checkin.userId checkin.quotaAwarded { w with checkins := w.checkins.put checkin }, ?_⟩
    show userCheckin env checkin w = _
    unfold userCheckin userCheckinWithTransaction
    rw [if_neg hsqlite]
    refine transaction_ok ?_
    rw [bind_ok (createCheckin_free hfree), bind_ok (modify_run _ _)]
    rfl
  | transferAffQuotaToQuota =>
    obtain ⟨user', huser', hsmall, henough, rfl, rfl⟩ := asks_transfer hasks
    refine ⟨{ w with
      users := w.users.put { user' with affQuota := user'.affQuota - quota, quota := user'.quota + quota } }, ?_⟩
    show transferAffQuotaToQuota env id quota w = _
    unfold transferAffQuotaToQuota
    rw [bind_ok (rejectIf_neg hsmall _ _)]
    refine transaction_ok ?_
    rw [bind_ok (get_run w), huser', bind_ok (require_some _ _ _), bind_ok (rejectIf_neg henough _ _),
      bind_ok (modify_run _ _)]
    rfl
  | _ => exact absurd rfl hlooks

theorem below_after {m : Txn World TopUpError (Option Credit)} (hm : Atomic m) (hbelow : Below w)
    (hok : wp m (fun _ w' => Below w') w) : Below (m w).2 := by
  rcases hrun : m w with ⟨e | a, w'⟩
  · rw [hm w e w' hrun]
    exact hbelow
  · exact hok a w' hrun

/-- One that finds room keeps to the ceiling. -/
theorem below_of_fits (hbelow : Below w) (hfits : Fits env w call) : Below (call.op env w).2 := by
  by_cases hlooks : call.looks env = true
  · exact (op_atomic env call).related (op_keeps env hlooks) w hbelow
  have hroom := hfits.resolve_left hlooks
  refine below_after (op_atomic env call) hbelow ?_
  cases call with
  | increaseUserQuota id quota db =>
    intro a w' hrun
    exact increaseUserQuota_keeps env id quota db w a w' hrun hbelow
  | writeBatch entry =>
    show wp (writeBatch entry) _ w
    unfold writeBatch
    simp only [wp_bind, wp_get, wp_require, wp_modify, wp_pure]
    intro taken htaken
    exact below_addQuota hbelow fun user huser => hroom taken.1 taken.2 user htaken huser
  | userCheckin checkin =>
    have hsqlite : env.sqlite ≠ true := hlooks
    show wp (userCheckin env checkin) _ w
    unfold userCheckin userCheckinWithTransaction createCheckin
    rw [if_neg hsqlite]
    simp only [wp_transaction, wp_bind, wp_get, wp_rejectIf, wp_modify, wp_pure]
    intro hfree
    have hcreated : Below { w with checkins := w.checkins.put checkin } := hbelow
    refine below_addQuota hcreated fun user huser => hroom checkin.userId checkin.quotaAwarded user ?_ huser
    exact if_neg hfree
  | transferAffQuotaToQuota userId quota =>
    show wp (transferAffQuotaToQuota env userId quota) _ w
    unfold transferAffQuotaToQuota
    simp only [wp_transaction, wp_bind, wp_get, wp_require, wp_rejectIf, wp_modify, wp_pure]
    intro hsmall user huser henough
    refine below_put hbelow (hroom userId quota user ?_ huser) rfl
    show (w.users.get? userId).bind _ = _
    rw [huser]
    exact if_neg (not_or.2 ⟨hsmall, henough⟩)
  | _ => exact absurd rfl hlooks

theorem rejected_iff_fits (hbelow : Below w) : Rejected env w call ↔ Fits env w call := by
  constructor
  · intro hrejected
    by_cases hlooks : call.looks env = true
    · exact Or.inl hlooks
    · refine Or.inr fun id quota user hasks huser => ?_
      by_contra hfull
      rw [not_le] at hfull
      obtain ⟨w', hok⟩ := ok_of_not_looks hbelow hlooks hasks huser hfull
      obtain ⟨e, he⟩ := hrejected id quota user hasks huser hfull
      rw [hok] at he
      cases he
  · intro hfits
    by_cases hlooks : call.looks env = true
    · exact rejected_of_looks hlooks
    · intro id quota user hasks huser hfull
      exact absurd ((hfits.resolve_left hlooks) id quota user hasks huser) (not_le.2 hfull)

/-! ## Runs -/

/-- Along a run no wallet gets beyond the ceiling, and what exceeds it is rejected and changes nothing. -/
def CeilingKept (env : WalletEnv) : World → List WalletCall → Prop
  | w, [] => Below w
  | w, call :: calls => Below w ∧ Rejected env w call ∧ CeilingKept env (call.op env w).2 calls

/-- Along a run every call that does not look at the wallet finds room for what it adds. -/
def AllFit (env : WalletEnv) : World → List WalletCall → Prop
  | _, [] => True
  | w, call :: calls => Fits env w call ∧ AllFit env (call.op env w).2 calls

/-- The ceiling of the wallets is kept along a run exactly if the calls that do not look find room. -/
theorem ceiling_iff (env : WalletEnv) {w : World} (hbelow : Below w) (calls : List WalletCall) :
    CeilingKept env w calls ↔ AllFit env w calls := by
  induction calls generalizing w with
  | nil => exact ⟨fun _ => trivial, fun _ => hbelow⟩
  | cons _ _ ih =>
    constructor
    · rintro ⟨-, hrejected, hkept⟩
      have hfits := (rejected_iff_fits hbelow).1 hrejected
      exact ⟨hfits, (ih (below_of_fits hbelow hfits)).1 hkept⟩
    · rintro ⟨hfits, hall⟩
      exact ⟨hbelow, (rejected_iff_fits hbelow).2 hfits, (ih (below_of_fits hbelow hfits)).2 hall⟩

/-- One user, and nothing else. -/
def oneWallet (quota : ℤ) : World where
  users := empty.put ⟨1, quota, 0, "", ""⟩
  topUps := empty
  orders := empty
  redemptions := empty
  checkins := empty
  subscriptions := []
  userQuotaStore := empty
  flush := []
  heldTopUps := []
  heldOrders := []
  heldCodes := []

theorem below_oneWallet (h : quota ≤ maxWalletQuota) : Below (oneWallet quota) := by
  intro user huser
  obtain rfl : user = ⟨1, quota, 0, "", ""⟩ := List.mem_singleton.1 huser
  exact h

/-- A check-in on a database with transactions, and one in a wallet that has room. -/
theorem ceiling_checkin :
    CeilingKept ⟨true, false, 500000⟩ (oneWallet 0) [.userCheckin ⟨1, "2025-06-01", 1000⟩, .increaseUserQuota 1 5 true] := by
  have hbelow : Below (oneWallet 0) := below_oneWallet (by decide)
  refine (ceiling_iff ⟨true, false, 500000⟩ hbelow _).2 ⟨Or.inr ?_, Or.inl rfl, trivial⟩
  intro id quota user hasks huser
  cases hasks
  obtain rfl : user = ⟨1, 0, 0, "", ""⟩ := (some.inj huser).symm
  decide

/-- A full wallet gets the award of a check-in nevertheless. -/
theorem full_wallet_checkin :
    ¬ ∀ (env : WalletEnv) (w : World) (calls : List WalletCall), Below w → CeilingKept env w calls := by
  intro hkept
  have hbelow : Below (oneWallet maxWalletQuota) := below_oneWallet (le_refl _)
  have hafter := (hkept ⟨false, false, 500000⟩ (oneWallet maxWalletQuota) [.userCheckin ⟨1, "2025-06-01", 1000⟩] hbelow).2.2
  have hquota := hafter ⟨1, maxWalletQuota + 1000, 0, "", ""⟩ (by decide +kernel)
  revert hquota
  decide

end NovaMaas.Wallet
