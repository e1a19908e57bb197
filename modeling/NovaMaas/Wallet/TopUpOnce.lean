/-
  An order is credited exactly once if it succeeds, and never otherwise.

  Each call changes the status of at most one order (`OrderStep`): it creates it, completes it with a credit, closes it, or
  saves a copy of it.  A completion and a closing look at the row that they have locked, which is pending.  A save does
  not: the order may have succeeded since the copy was read, and is then failed although it was credited
  (`stale_failure`); a code is even enabled again by an edit.  So along a run the orders are kept exactly if each save
  leaves a success what it is, makes none, and makes nothing pending that was not (`orders_iff`).
-/
import NovaMaas.Wallet.Ceiling

open List Option

namespace NovaMaas.Wallet

open Txn Table
open NovaMaas.Billing (maxWalletQuota)

/-! ## Orders -/

/-- A top-up, a redemption code, or an order of a subscription. -/
inductive OrderKey where
  | topUp (text : String)
  | code (key : String)
  | subscription (tradeNo : TradeNo)
  deriving DecidableEq

/-- A code that is used has succeeded, one that is disabled has failed. -/
def RedemptionStatus.orderStatus : RedemptionStatus → TopUpStatus
  | .enabled => .pending
  | .disabled => .failed
  | .used => .success

/-- The status of an order, if it is there.  A subscription that is shown among the top-ups is no top-up. -/
def orderStatus (w : World) : OrderKey → Option TopUpStatus
  | .topUp text => (w.topUps.get? (.topUp text)).map TopUp.status
  | .code key => (w.redemptions.get? key).map fun r => r.status.orderStatus
  | .subscription tradeNo => (w.orders.get? tradeNo).map SubscriptionOrder.status

/-- The order of a trade number. -/
def TradeNo.order : TradeNo → OrderKey
  | .topUp text => .topUp text
  | .subscription text => .subscription (.subscription text)

/-- The order that a call may complete. -/
def WalletCall.order : WalletCall → Option OrderKey
  | .rechargeEpay tradeNo _ => some tradeNo.order
  | .recharge tradeNo _ => some tradeNo.order
  | .rechargeCreem tradeNo _ => some tradeNo.order
  | .rechargeWaffo tradeNo => some tradeNo.order
  | .rechargeWaffoPancake tradeNo => some tradeNo.order
  | .manualCompleteTopUp tradeNo => some tradeNo.order
  | .redeem key _ _ => some (.code key)
  | .completeSubscriptionOrder tradeNo _ _ _ _ => some (.subscription tradeNo)
  | _ => none

/-- The call is about orders. -/
def WalletCall.ofOrders : WalletCall → Bool
  | .increaseUserQuota _ _ _ | .decreaseUserQuota _ _ _ | .takeBatch | .writeBatch _ | .userCheckin _
  | .adjustWallet _ _ _ | .transferAffQuotaToQuota _ _ => false
  | _ => true

/-- The credit of a call that has completed an order. -/
def credited (env : WalletEnv) (w : World) (call : WalletCall) : Option (OrderKey × Credit) :=
  (call.op env w).1.toOption.join.bind fun c => call.order.map fun key => (key, c)

/-- Neither a wallet nor a subscription is touched. -/
def Quiet (w w' : World) : Prop := w'.users = w.users ∧ w'.subscriptions = w.subscriptions

/-- A wallet has been credited, and nothing else. -/
structure PaidTo (w w' : World) (c : Credit) : Prop where
  positive : 0 < c.quota
  wallet   : ∃ user user', w.users.get? c.userId = some user ∧ w'.users.get? c.userId = some user' ∧
    user'.quota = user.quota + c.quota ∧ user'.quota ≤ maxWalletQuota
  others   : ∀ id, id ≠ c.userId → w'.users.get? id = w.users.get? id
  plans    : w'.subscriptions = w.subscriptions

/-- What the completion of an order gives: its quota to the user of the top-up, or to the one who redeems the code; a
    subscription to the user of the order. -/
def Given (w w' : World) : OrderKey → Credit → Prop
  | .topUp text, c => (∃ topUp, w.topUps.get? (.topUp text) = some topUp ∧ topUp.userId = c.userId) ∧ PaidTo w w' c
  | .code key, c => (∃ redemption, w.redemptions.get? key = some redemption ∧ redemption.quota = c.quota) ∧ PaidTo w w' c
  | .subscription tradeNo, c => ∃ order, w.orders.get? tradeNo = some order ∧ order.userId = c.userId ∧
    w'.subscriptions = w.subscriptions ++ [⟨order.userId, order.planId⟩] ∧ w'.users = w.users

/-- The row that a save of a code writes. -/
def savedCode (w : World) (request : ℕ) (edit : RedemptionEdit) : Option Redemption := do
  let held ← w.heldCodes[request]?
  let redemption ← (edit.apply held).toOption
  let row ← w.redemptions.get? held.key
  some { redemption with usedUserId := row.usedUserId }

/-- The order that a call saves a copy of, and the status it saves. -/
def savedOrder (w : World) : WalletCall → Option (OrderKey × TopUpStatus)
  | .saveFailedTopUp request => w.heldTopUps[request]?.map fun topUp => (topUp.tradeNo.order, .failed)
  | .saveFailedOrder request => w.heldOrders[request]?.map fun order => (.subscription order.tradeNo, .failed)
  | .saveRedemption request edit =>
    (savedCode w request edit).map fun redemption => (.code redemption.key, redemption.status.orderStatus)
  | _ => none

/-- What a call does to the orders. -/
inductive OrderStep (call : WalletCall) (w : World) : Option (OrderKey × Credit) → World → Prop
  | same {w' : World} (hstatus : ∀ key, orderStatus w' key = orderStatus w key)
      (hquiet : call.ofOrders = true → Quiet w w') : OrderStep call w none w'
  /-- The order is created, or closed. -/
  | moved {w' : World} (key : OrderKey) (status : TopUpStatus)
      (hfrom : orderStatus w key = none ∨ orderStatus w key = some .pending) (hto : orderStatus w' key = some status)
      (hstatus : status ≠ .success) (hothers : ∀ k, k ≠ key → orderStatus w' k = orderStatus w k) (hquiet : Quiet w w') :
      OrderStep call w none w'
  | completed {w' : World} (key : OrderKey) (c : Credit) (hfrom : orderStatus w key = some .pending)
      (hto : orderStatus w' key = some .success) (hothers : ∀ k, k ≠ key → orderStatus w' k = orderStatus w k)
      (hgiven : Given w w' key c) : OrderStep call w (some (key, c)) w'
  /-- A copy of the order is saved. -/
  | saved {w' : World} (key : OrderKey) (status : TopUpStatus) (hsaved : savedOrder w call = some (key, status))
      (hto : orderStatus w' key = some status) (hothers : ∀ k, k ≠ key → orderStatus w' k = orderStatus w k)
      (hquiet : Quiet w w') : OrderStep call w none w'

/-- Only top-ups are pending among the top-ups, and copies of top-ups are held; the same of subscriptions. -/
structure Kinds (w : World) : Prop where
  topUps     : ∀ topUp ∈ w.topUps.rows, topUp.status = .pending → ∃ text, topUp.tradeNo = .topUp text
  orders     : ∀ order ∈ w.orders.rows, ∃ text, order.tradeNo = .subscription text
  heldTopUps : ∀ topUp ∈ w.heldTopUps, ∃ text, topUp.tradeNo = .topUp text
  heldOrders : ∀ order ∈ w.heldOrders, ∃ text, order.tradeNo = .subscription text

/-! ## One row is written -/

section

variable {w w' : World}

/-- The status of an order depends on its own row only. -/
theorem status_congr {key : OrderKey}
    (htopUps : ∀ text, key = .topUp text → w'.topUps.get? (.topUp text) = w.topUps.get? (.topUp text))
    (hcodes : ∀ code, key = .code code → w'.redemptions.get? code = w.redemptions.get? code)
    (horders : ∀ tradeNo, key = .subscription tradeNo → w'.orders.get? tradeNo = w.orders.get? tradeNo) :
    orderStatus w' key = orderStatus w key := by
  cases key with
  | topUp text => exact congrArg (Option.map _) (htopUps text rfl)
  | code code => exact congrArg (Option.map _) (hcodes code rfl)
  | subscription tradeNo => exact congrArg (Option.map _) (horders tradeNo rfl)

theorem status_putTopUp {topUp : TopUp} {text : String} (htext : topUp.tradeNo = .topUp text)
    (htopUps : w'.topUps = w.topUps.put topUp) (hcodes : w'.redemptions = w.redemptions) (horders : w'.orders = w.orders) :
    orderStatus w' (.topUp text) = some topUp.status ∧ ∀ k, k ≠ .topUp text → orderStatus w' k = orderStatus w k := by
  constructor
  · show (w'.topUps.get? (.topUp text)).map TopUp.status = _
    rw [htopUps, ← htext, get?_put_self]
    rfl
  · intro k hk
    refine status_congr (fun text' hkey => ?_) (fun _ _ => by rw [hcodes]) (fun _ _ => by rw [horders])
    have hne : topUp.tradeNo ≠ .topUp text' := by
      rw [htext]
      rintro ⟨⟩
      exact hk hkey
    rw [htopUps, get?_put_ne hne]

theorem status_putCode {redemption : Redemption} (hcodes : w'.redemptions = w.redemptions.put redemption)
    (htopUps : w'.topUps = w.topUps) (horders : w'.orders = w.orders) :
    orderStatus w' (.code redemption.key) = some redemption.status.orderStatus ∧
      ∀ k, k ≠ .code redemption.key → orderStatus w' k = orderStatus w k := by
  constructor
  · show (w'.redemptions.get? redemption.key).map _ = _
    rw [hcodes, get?_put_self]
    rfl
  · intro k hk
    refine status_congr (fun _ _ => by rw [htopUps]) (fun key hkey => ?_) (fun _ _ => by rw [horders])
    rw [hcodes, get?_put_ne fun heq => hk (by rw [hkey, heq])]

/-- An order of a subscription, and perhaps the row that shows it among the top-ups. -/
theorem status_putOrder {order : SubscriptionOrder} (horders : w'.orders = w.orders.put order)
    (hcodes : w'.redemptions = w.redemptions)
    (htopUps : ∀ text, w'.topUps.get? (.topUp text) = w.topUps.get? (.topUp text)) :
    orderStatus w' (.subscription order.tradeNo) = some order.status ∧
      ∀ k, k ≠ .subscription order.tradeNo → orderStatus w' k = orderStatus w k := by
  constructor
  · show (w'.orders.get? order.tradeNo).map _ = _
    rw [horders, get?_put_self]
    rfl
  · intro k hk
    refine status_congr (fun text _ => htopUps text) (fun _ _ => by rw [hcodes]) (fun tradeNo hkey => ?_)
    rw [horders, get?_put_ne fun heq => hk (by rw [hkey, heq])]

/-- The rows and the copies are old ones, or of the right kind. -/
theorem kinds_of (hk : Kinds w)
    (htopUps : ∀ t ∈ w'.topUps.rows, t ∈ w.topUps.rows ∨ (t.status = .pending → ∃ text, t.tradeNo = .topUp text))
    (horders : ∀ o ∈ w'.orders.rows, o ∈ w.orders.rows ∨ ∃ text, o.tradeNo = .subscription text)
    (hheldTopUps : ∀ t ∈ w'.heldTopUps, t ∈ w.heldTopUps ∨ ∃ text, t.tradeNo = .topUp text)
    (hheldOrders : ∀ o ∈ w'.heldOrders, o ∈ w.heldOrders ∨ ∃ text, o.tradeNo = .subscription text) : Kinds w' where
  topUps t ht := (htopUps t ht).elim (hk.topUps t) id
  orders o ho := (horders o ho).elim (hk.orders o) id
  heldTopUps t ht := (hheldTopUps t ht).elim (hk.heldTopUps t) id
  heldOrders o ho := (hheldOrders o ho).elim (hk.heldOrders o) id

theorem kinds_putTopUp (hk : Kinds w) {topUp : TopUp}
    (htext : topUp.status = .pending → ∃ text, topUp.tradeNo = .topUp text) (htopUps : w'.topUps = w.topUps.put topUp)
    (horders : w'.orders = w.orders) (hheldTopUps : ∀ t ∈ w'.heldTopUps, t ∈ w.heldTopUps ∨ ∃ text, t.tradeNo = .topUp text)
    (hheldOrders : w'.heldOrders = w.heldOrders) : Kinds w' := by
  refine kinds_of hk ?_ (horders ▸ fun _ => .inl) hheldTopUps (hheldOrders ▸ fun _ => .inl)
  intro t ht
  rw [htopUps, mem_put] at ht
  rcases ht with rfl | ⟨ht, -⟩
  · exact .inr htext
  · exact .inl ht

theorem kinds_same (hk : Kinds w) (htopUps : w'.topUps = w.topUps) (horders : w'.orders = w.orders)
    (hheldTopUps : w'.heldTopUps = w.heldTopUps) (hheldOrders : w'.heldOrders = w.heldOrders) : Kinds w' :=
  kinds_of hk (htopUps ▸ fun _ => .inl) (horders ▸ fun _ => .inl) (hheldTopUps ▸ fun _ => .inl)
    (hheldOrders ▸ fun _ => .inl)

end

/-! ## Each call -/

/-- What a call leaves behind when it succeeds. -/
def Steps (call : WalletCall) (w : World) (result : Option Credit) (w' : World) : Prop :=
  Kinds w' ∧ OrderStep call w (result.bind fun c => call.order.map fun key => (key, c)) w'

/-- A credit, and the row of its order. -/
theorem creditTopUpQuota_spec (userId quota : ℤ) (updates : UserUpdates) (w : World) :
    wp (creditTopUpQuota userId quota updates) (fun _ w' => ∃ user, w.users.get? userId = some user ∧ 0 < quota ∧
      user.quota + quota ≤ maxWalletQuota ∧
      w' = { w with users := w.users.put { updates.apply user with quota := user.quota + quota } }) w := by
  unfold creditTopUpQuota
  simp only [wp_bind, wp_get, wp_require, wp_rejectIf, wp_modify]
  intro hquota user huser hroom
  exact ⟨user, huser, by omega, by omega, rfl⟩

theorem paidTo_put {w w' : World} {userId quota : ℤ} {updates : UserUpdates} {user : User}
    (huser : w.users.get? userId = some user) (hpos : 0 < quota) (hroom : user.quota + quota ≤ maxWalletQuota)
    (husers : w'.users = w.users.put { updates.apply user with quota := user.quota + quota })
    (hplans : w'.subscriptions = w.subscriptions) : PaidTo w w' ⟨userId, quota⟩ := by
  have hid : User.id { updates.apply user with quota := user.quota + quota } = userId := by
    show user.id = userId
    exact key_of_get? huser
  constructor
  · exact hpos
  · refine ⟨user, { updates.apply user with quota := user.quota + quota }, huser, ?_, rfl, hroom⟩
    rw [husers, get?_put, if_pos hid]
  · intro id hne
    have hne' : User.id { updates.apply user with quota := user.quota + quota } ≠ id := by
      rw [hid]
      exact fun h => hne h.symm
    rw [husers, get?_put_ne hne']
  · exact hplans

variable {w : World} {call : WalletCall} {order : SubscriptionOrder}

/-- All six completions of a top-up. -/
theorem completeTopUp_steps (hk : Kinds w) (expected : Option PaymentProvider) (repeats : Bool)
    (quotaOf : TopUp → Option ℤ) (method : Option String) (updates : UserUpdates) (tradeNo : TradeNo)
    (horder : call.order = some tradeNo.order) :
    wp (completeTopUp expected repeats quotaOf method updates tradeNo) (Steps call w) w := by
  unfold completeTopUp
  simp only [wp_transaction, wp_bind, wp_get, wp_require, wp_rejectIf, wp_ite, wp_pure, wp_modify]
  intro topUp htopUp _
  refine ⟨fun _ => ⟨hk, .same (fun _ => rfl) fun _ => ⟨rfl, rfl⟩⟩, fun _ hpending quota _ => ?_⟩
  rw [not_not] at hpending
  have hkey : topUp.tradeNo = tradeNo := key_of_get? htopUp
  -- a pending top-up is no mirror of a subscription
  obtain ⟨text, htext⟩ := hk.topUps topUp (mem_of_get? htopUp) hpending
  rw [hkey] at htext
  subst htext
  refine wp_mono (creditTopUpQuota_spec _ _ _ _) ?_
  rintro _ w' ⟨user, huser, hpos, hroom, hw'⟩
  generalize hrow : ({ topUp with status := .success, paymentMethod := method.getD topUp.paymentMethod } : TopUp) = row
    at hw'
  have hrowText : row.tradeNo = .topUp text := by rw [← hrow]; exact hkey
  have hsuccess : row.status = .success := by rw [← hrow]
  refine ⟨kinds_putTopUp hk (fun _ => ⟨text, hrowText⟩) (by rw [hw']) (by rw [hw']) (by rw [hw']; exact fun _ => .inl)
    (by rw [hw']), ?_⟩
  show OrderStep _ w (call.order.map fun key => (key, _)) _
  rw [horder]
  have hfrom : orderStatus w (.topUp text) = some .pending := by
    show (w.topUps.get? (.topUp text)).map TopUp.status = _
    rw [htopUp, map_some, hpending]
  obtain ⟨hto, hothers⟩ := @status_putTopUp w w' row text hrowText (by rw [hw']) (by rw [hw']) (by rw [hw'])
  rw [hsuccess] at hto
  exact .completed (.topUp text) ⟨topUp.userId, quota⟩ hfrom hto hothers
    ⟨⟨topUp, htopUp, rfl⟩, paidTo_put huser hpos hroom (by rw [hw']) (by rw [hw'])⟩

/-- A row of a top-up is written, and it is created, closed or saved. -/
theorem putTopUp_steps {w w' : World} (hk : Kinds w) {topUp : TopUp} {text : String}
    (htext : topUp.tradeNo = .topUp text) (hto : topUp.status ≠ .success)
    (hfrom : orderStatus w (.topUp text) = none ∨ orderStatus w (.topUp text) = some .pending ∨
      savedOrder w call = some (.topUp text, topUp.status))
    (htopUps : w'.topUps = w.topUps.put topUp) (hcodes : w'.redemptions = w.redemptions)
    (horders : w'.orders = w.orders)
    (hheldTopUps : ∀ t ∈ w'.heldTopUps, t ∈ w.heldTopUps ∨ ∃ text, t.tradeNo = .topUp text)
    (hheldOrders : w'.heldOrders = w.heldOrders) (hquiet : Quiet w w') : Steps call w none w' := by
  refine ⟨kinds_putTopUp hk (fun _ => ⟨text, htext⟩) htopUps horders hheldTopUps hheldOrders, ?_⟩
  obtain ⟨hstatus, hothers⟩ := status_putTopUp htext htopUps hcodes horders
  rcases hfrom with hfrom | hfrom | hsaved
  · exact .moved (.topUp text) topUp.status (Or.inl hfrom) hstatus hto hothers hquiet
  · exact .moved (.topUp text) topUp.status (Or.inr hfrom) hstatus hto hothers hquiet
  · exact .saved (.topUp text) _ hsaved hstatus hothers hquiet

theorem same_steps {w w' : World} (hk : Kinds w) (htopUps : w'.topUps = w.topUps)
    (hcodes : w'.redemptions = w.redemptions) (horders : w'.orders = w.orders)
    (hheldTopUps : w'.heldTopUps = w.heldTopUps) (hheldOrders : w'.heldOrders = w.heldOrders)
    (hquiet : call.ofOrders = true → Quiet w w') : Steps call w none w' := by
  refine ⟨kinds_same hk htopUps horders hheldTopUps hheldOrders, .same (fun key => ?_) hquiet⟩
  exact status_congr (fun _ _ => by rw [htopUps]) (fun _ _ => by rw [hcodes]) (fun _ _ => by rw [horders])

theorem insertTopUp_steps (hk : Kinds w) (text : String) (topUp : TopUp) :
    wp (insertTopUp text topUp) (Steps (.insertTopUp text topUp) w) w := by
  unfold insertTopUp
  simp only [wp_bind, wp_get, wp_rejectIf, wp_modify, wp_pure]
  intro hnew
  have hnone : w.topUps.get? (.topUp text) = none := not_isSome_iff_eq_none.1 hnew
  have hfrom : orderStatus w (.topUp text) = none := by
    show (w.topUps.get? (.topUp text)).map _ = _
    rw [hnone]
    rfl
  refine @putTopUp_steps _ w _ hk { topUp with tradeNo := .topUp text, status := .pending } text rfl
    (fun h => by cases h) (Or.inl hfrom) rfl rfl rfl ?_ rfl ⟨rfl, rfl⟩
  intro t ht
  rcases mem_append.1 ht with ht | ht
  · exact Or.inl ht
  · refine Or.inr ⟨text, ?_⟩
    split at ht
    · rw [mem_singleton.1 ht]
    · cases ht

theorem updatePendingTopUpStatus_steps (hk : Kinds w) (tradeNo : TradeNo) (expected : Option PaymentProvider)
    (target : TopUpEnd) :
    wp (updatePendingTopUpStatus tradeNo expected target)
      (Steps (.updatePendingTopUpStatus tradeNo expected target) w) w := by
  unfold updatePendingTopUpStatus
  simp only [wp_transaction, wp_bind, wp_get, wp_require, wp_rejectIf, wp_pure, wp_modify]
  intro topUp htopUp _ hpending
  rw [not_not] at hpending
  obtain ⟨text, htext⟩ := hk.topUps topUp (mem_of_get? htopUp) hpending
  have hkey : topUp.tradeNo = tradeNo := key_of_get? htopUp
  have hfrom : orderStatus w (.topUp text) = some .pending := by
    show (w.topUps.get? (.topUp text)).map TopUp.status = _
    rw [← htext, hkey, htopUp, map_some, hpending]
  have hclosed : target.status ≠ .success := by cases target <;> exact fun h => by cases h
  exact @putTopUp_steps _ w _ hk { topUp with status := target.status } text htext hclosed (Or.inr (Or.inl hfrom)) rfl
    rfl rfl (fun t ht => Or.inl ht) rfl ⟨rfl, rfl⟩

theorem readFailedTopUp_steps (hk : Kinds w) (tradeNo : TradeNo) :
    wp (readFailedTopUp tradeNo) (Steps (.readFailedTopUp tradeNo) w) w := by
  unfold readFailedTopUp
  simp only [wp_bind, wp_get, wp_require, wp_rejectIf, wp_pure, wp_modify]
  intro topUp htopUp _ hpending
  rw [not_not] at hpending
  have hheld := hk.topUps topUp (mem_of_get? htopUp) hpending
  refine ⟨⟨hk.topUps, hk.orders, ?_, hk.heldOrders⟩, .same (fun key => by cases key <;> rfl) fun _ => ⟨rfl, rfl⟩⟩
  intro t ht
  rcases mem_append.1 ht with ht | ht
  · exact hk.heldTopUps t ht
  · rw [mem_singleton.1 ht]
    exact hheld

theorem saveFailedTopUp_steps (hk : Kinds w) (request : ℕ) :
    wp (saveFailedTopUp request) (Steps (.saveFailedTopUp request) w) w := by
  unfold saveFailedTopUp
  simp only [wp_bind, wp_get, wp_require, wp_pure, wp_modify]
  intro topUp htopUp
  obtain ⟨text, htext⟩ := hk.heldTopUps topUp (mem_of_getElem? htopUp)
  have hsaved : savedOrder w (.saveFailedTopUp request) = some (.topUp text, .failed) := by
    show w.heldTopUps[request]?.map _ = _
    rw [htopUp, map_some, htext]
    rfl
  exact @putTopUp_steps _ w _ hk { topUp with status := .failed } text htext (fun h => by cases h)
    (Or.inr (Or.inr hsaved)) rfl rfl rfl (fun t ht => Or.inl ht) rfl ⟨rfl, rfl⟩

/-- A row of a code is written, with no credit. -/
theorem putCode_steps {w w' : World} (hk : Kinds w) {redemption : Redemption}
    (hfrom : orderStatus w (.code redemption.key) = none ∧ redemption.status ≠ .used ∨
      savedOrder w call = some (.code redemption.key, redemption.status.orderStatus))
    (hcodes : w'.redemptions = w.redemptions.put redemption) (htopUps : w'.topUps = w.topUps)
    (horders : w'.orders = w.orders) (hheldTopUps : w'.heldTopUps = w.heldTopUps)
    (hheldOrders : w'.heldOrders = w.heldOrders) (hquiet : Quiet w w') : Steps call w none w' := by
  refine ⟨kinds_same hk htopUps horders hheldTopUps hheldOrders, ?_⟩
  obtain ⟨hstatus, hothers⟩ := status_putCode hcodes htopUps horders
  rcases hfrom with ⟨hfrom, hto⟩ | hsaved
  · refine .moved (.code redemption.key) redemption.status.orderStatus (Or.inl hfrom) hstatus ?_ hothers hquiet
    cases hcase : redemption.status with
    | enabled => exact nofun
    | disabled => exact nofun
    | used => exact absurd hcase hto
  · exact .saved (.code redemption.key) _ hsaved hstatus hothers hquiet

theorem insertRedemption_steps (hk : Kinds w) (redemption : Redemption) :
    wp (insertRedemption redemption) (Steps (.insertRedemption redemption) w) w := by
  unfold insertRedemption
  simp only [wp_bind, wp_get, wp_rejectIf, wp_pure, wp_modify]
  intro _ hnew
  have hnone : w.redemptions.get? redemption.key = none := not_isSome_iff_eq_none.1 hnew
  have hfrom : orderStatus w (.code redemption.key) = none := by
    show (w.redemptions.get? redemption.key).map _ = _
    rw [hnone]
    rfl
  exact @putCode_steps _ w _ hk { redemption with status := .enabled } (Or.inl ⟨hfrom, fun h => by cases h⟩) rfl
    rfl rfl rfl rfl ⟨rfl, rfl⟩

theorem saveRedemption_steps (hk : Kinds w) (request : ℕ) (edit : RedemptionEdit) :
    wp (saveRedemption request edit) (Steps (.saveRedemption request edit) w) w := by
  unfold saveRedemption
  simp only [wp_bind, wp_get, wp_require, wp_ofExcept, wp_pure, wp_modify]
  intro held hheld redemption hedit row hget
  generalize hrow : ({ redemption with usedUserId := row.usedUserId } : Redemption) = saved
  have hcode : savedCode w request edit = some saved := by
    unfold savedCode
    rw [hheld, bind_eq_bind, bind_some, hedit]
    show (w.redemptions.get? held.key).bind _ = _
    rw [hget, ← hrow]
    rfl
  have hsaved : savedOrder w (.saveRedemption request edit) = some (.code saved.key, saved.status.orderStatus) := by
    show (savedCode w request edit).map _ = _
    rw [hcode]
    rfl
  exact putCode_steps hk (Or.inr hsaved) rfl rfl rfl rfl rfl ⟨rfl, rfl⟩

theorem redeem_steps (hk : Kinds w) (key : String) (userId now : ℤ) :
    wp (redeem key userId now) (Steps (.redeem key userId now) w) w := by
  unfold redeem
  simp only [wp_transaction, wp_bind, wp_get, wp_require, wp_rejectIf, wp_pure, wp_modify]
  intro redemption hget henabled _
  rw [not_not] at henabled
  have hkey : redemption.key = key := key_of_get? hget
  refine wp_mono (creditTopUpQuota_spec _ _ _ _) ?_
  rintro _ w' ⟨user, huser, hpos, hroom, hw'⟩
  generalize hrow : ({ redemption with status := .used, usedUserId := userId } : Redemption) = row at hw'
  have hrowKey : row.key = key := by rw [← hrow]; exact hkey
  have hused : row.status = .used := by rw [← hrow]
  have hfrom : orderStatus w (.code key) = some .pending := by
    show (w.redemptions.get? key).map _ = _
    rw [hget, map_some, henabled]
    rfl
  obtain ⟨hto, hothers⟩ := @status_putCode w w' row (by rw [hw']) (by rw [hw']) (by rw [hw'])
  rw [hused, hrowKey] at hto
  rw [hrowKey] at hothers
  refine ⟨kinds_same hk (by rw [hw']) (by rw [hw']) (by rw [hw']) (by rw [hw']), ?_⟩
  exact .completed (.code key) ⟨userId, redemption.quota⟩ hfrom hto hothers
    ⟨⟨redemption, hget, rfl⟩, paidTo_put huser hpos hroom (by rw [hw']) (by rw [hw'])⟩

theorem kinds_putOrder {w w' : World} (hk : Kinds w) {text : String} (htext : order.tradeNo = .subscription text)
    (horders : w'.orders = w.orders.put order)
    (htopUps : ∀ t ∈ w'.topUps.rows, t ∈ w.topUps.rows ∨ t.status ≠ .pending)
    (hheldTopUps : w'.heldTopUps = w.heldTopUps)
    (hheldOrders : ∀ o ∈ w'.heldOrders, o ∈ w.heldOrders ∨ ∃ text, o.tradeNo = .subscription text) : Kinds w' := by
  refine kinds_of hk (fun t ht => (htopUps t ht).imp_right fun hnot h => absurd h hnot) ?_ (hheldTopUps ▸ fun _ => .inl)
    hheldOrders
  intro o ho
  rw [horders, mem_put] at ho
  rcases ho with rfl | ⟨ho, -⟩
  · exact .inr ⟨text, htext⟩
  · exact .inl ho

/-- A row of an order is written, and it is created, closed or saved. -/
theorem putOrder_steps {w w' : World} (hk : Kinds w) {text : String} (htext : order.tradeNo = .subscription text)
    (hto : order.status ≠ .success)
    (hfrom : orderStatus w (.subscription order.tradeNo) = none ∨
      orderStatus w (.subscription order.tradeNo) = some .pending ∨
      savedOrder w call = some (.subscription order.tradeNo, order.status))
    (horders : w'.orders = w.orders.put order) (hcodes : w'.redemptions = w.redemptions)
    (htopUps : w'.topUps = w.topUps) (hheldTopUps : w'.heldTopUps = w.heldTopUps)
    (hheldOrders : ∀ o ∈ w'.heldOrders, o ∈ w.heldOrders ∨ ∃ text, o.tradeNo = .subscription text)
    (hquiet : Quiet w w') : Steps call w none w' := by
  have hrows : ∀ t ∈ w'.topUps.rows, t ∈ w.topUps.rows ∨ t.status ≠ .pending := by
    rw [htopUps]
    exact fun t ht => Or.inl ht
  refine ⟨kinds_putOrder hk htext horders hrows hheldTopUps hheldOrders, ?_⟩
  obtain ⟨hstatus, hothers⟩ := status_putOrder horders hcodes fun _ => by rw [htopUps]
  rcases hfrom with hfrom | hfrom | hsaved
  · exact .moved (.subscription order.tradeNo) order.status (Or.inl hfrom) hstatus hto hothers hquiet
  · exact .moved (.subscription order.tradeNo) order.status (Or.inr hfrom) hstatus hto hothers hquiet
  · exact .saved (.subscription order.tradeNo) _ hsaved hstatus hothers hquiet

theorem insertSubscriptionOrder_steps (hk : Kinds w) (text : String) (order : SubscriptionOrder) :
    wp (insertSubscriptionOrder text order) (Steps (.insertSubscriptionOrder text order) w) w := by
  unfold insertSubscriptionOrder
  simp only [wp_bind, wp_get, wp_rejectIf, wp_modify, wp_pure]
  intro hnew
  have hnone : w.orders.get? (.subscription text) = none := not_isSome_iff_eq_none.1 hnew
  have hfrom : orderStatus w (.subscription (.subscription text)) = none := by
    show (w.orders.get? (.subscription text)).map _ = _
    rw [hnone]
    rfl
  refine @putOrder_steps _ { order with tradeNo := .subscription text, status := .pending } w _ hk text rfl
    (fun h => by cases h) (Or.inl hfrom) rfl rfl rfl rfl ?_ ⟨rfl, rfl⟩
  intro o ho
  rcases mem_append.1 ho with ho | ho
  · exact Or.inl ho
  · refine Or.inr ⟨text, ?_⟩
    split at ho
    · rw [mem_singleton.1 ho]
    · cases ho

theorem expireSubscriptionOrder_steps (hk : Kinds w) (tradeNo : TradeNo) (expected : Option PaymentProvider) :
    wp (expireSubscriptionOrder tradeNo expected) (Steps (.expireSubscriptionOrder tradeNo expected) w) w := by
  unfold expireSubscriptionOrder
  simp only [wp_transaction, wp_bind, wp_get, wp_require, wp_rejectIf, wp_ite, wp_pure, wp_modify]
  intro order horder _
  refine ⟨fun _ => ⟨hk, .same (fun _ => rfl) fun _ => ⟨rfl, rfl⟩⟩, fun hpending => ?_⟩
  rw [not_not] at hpending
  obtain ⟨text, htext⟩ := hk.orders order (mem_of_get? horder)
  have hkey : order.tradeNo = tradeNo := key_of_get? horder
  have hfrom : orderStatus w (.subscription order.tradeNo) = some .pending := by
    show (w.orders.get? order.tradeNo).map SubscriptionOrder.status = _
    rw [hkey, horder, map_some, hpending]
  exact @putOrder_steps _ { order with status := .expired } w _ hk text htext (fun h => by cases h)
    (Or.inr (Or.inl hfrom)) rfl rfl rfl rfl (fun o ho => Or.inl ho) ⟨rfl, rfl⟩

theorem saveFailedOrder_steps (hk : Kinds w) (request : ℕ) :
    wp (saveFailedOrder request) (Steps (.saveFailedOrder request) w) w := by
  unfold saveFailedOrder
  simp only [wp_bind, wp_get, wp_require, wp_pure, wp_modify]
  intro order horder
  obtain ⟨text, htext⟩ := hk.heldOrders order (mem_of_getElem? horder)
  have hsaved : savedOrder w (.saveFailedOrder request) = some (.subscription order.tradeNo, .failed) := by
    show w.heldOrders[request]?.map _ = _
    rw [horder]
    rfl
  exact @putOrder_steps _ { order with status := .failed } w _ hk text htext (fun h => by cases h)
    (Or.inr (Or.inr hsaved)) rfl rfl rfl rfl (fun o ho => Or.inl ho) ⟨rfl, rfl⟩

/-- The row that shows an order of a subscription among the top-ups. -/
theorem upsertSubscriptionTopUpTx_spec (w : World) :
    wp (upsertSubscriptionTopUpTx order) (fun _ w' => ∃ shown : TopUp, shown.tradeNo = order.tradeNo ∧
      shown.status = .success ∧ w' = { w with topUps := w.topUps.put shown }) w := by
  unfold upsertSubscriptionTopUpTx
  rw [wp_bind, wp_get]
  cases hget : w.topUps.get? order.tradeNo with
  | none => exact (wp_modify _ _ _).2 ⟨_, rfl, rfl, rfl⟩
  | some topUp =>
    simp only [wp_bind, wp_rejectIf, wp_modify]
    have hkey : topUp.tradeNo = order.tradeNo := key_of_get? hget
    exact fun _ => ⟨{ topUp with money := order.money, paymentMethod := order.paymentMethod, status := .success },
      hkey, rfl, rfl⟩

theorem completeSubscriptionOrder_steps (hk : Kinds w) (tradeNo : TradeNo) (payload : String)
    (expected : Option PaymentProvider) (method : String) (plan : PlanAnswer) :
    wp (completeSubscriptionOrder tradeNo payload expected method plan)
      (Steps (.completeSubscriptionOrder tradeNo payload expected method plan) w) w := by
  unfold completeSubscriptionOrder
  simp only [wp_transaction, wp_bind, wp_get, wp_require, wp_rejectIf, wp_ite, wp_pure, wp_modify]
  intro order horder _
  refine ⟨fun _ => ⟨hk, .same (fun _ => rfl) fun _ => ⟨rfl, rfl⟩⟩, fun _ hpending _ _ _ => ?_⟩
  rw [not_not] at hpending
  obtain ⟨text, htext⟩ := hk.orders order (mem_of_get? horder)
  have hkey : order.tradeNo = tradeNo := key_of_get? horder
  refine wp_mono (upsertSubscriptionTopUpTx_spec _) ?_
  rintro _ w₁ ⟨shown, hshown, hsuccess, rfl⟩
  generalize hrow : ({ order with
    status := .success
    providerPayload := if payload = "" then order.providerPayload else payload
    paymentMethod := if method = "" then order.paymentMethod else method } : SubscriptionOrder) = row
  have hrowKey : row.tradeNo = order.tradeNo := by rw [← hrow]
  have hrowStatus : row.status = .success := by rw [← hrow]
  have hrows : ∀ t ∈ (w.topUps.put shown).rows, t ∈ w.topUps.rows ∨ t.status ≠ .pending := by
    intro t ht
    rcases mem_put.1 ht with rfl | ⟨ht, -⟩
    · exact .inr (by rw [hsuccess]; exact fun h => by cases h)
    · exact .inl ht
  -- what is shown has the trade number of a subscription, so no top-up is written
  have hshownTopUps : ∀ text', (w.topUps.put shown).get? (.topUp text') = w.topUps.get? (.topUp text') := by
    intro text'
    refine get?_put_ne ?_
    rw [hshown, htext]
    exact fun h => by cases h
  have hfrom : orderStatus w (.subscription tradeNo) = some .pending := by
    show (w.orders.get? tradeNo).map SubscriptionOrder.status = _
    rw [horder, map_some, hpending]
  generalize hw' : ({ w with
    subscriptions := w.subscriptions ++ [⟨order.userId, order.planId⟩]
    topUps := w.topUps.put shown
    orders := w.orders.put row } : World) = w'
  obtain ⟨hto, hothers⟩ := @status_putOrder w w' row (by rw [← hw']) (by rw [← hw']) (by rw [← hw']; exact hshownTopUps)
  rw [hrowStatus, hrowKey, hkey] at hto
  rw [hrowKey, hkey] at hothers
  refine ⟨kinds_putOrder hk (hrowKey.trans htext) (by rw [← hw']) (by rw [← hw']; exact hrows) (by rw [← hw'])
    (by rw [← hw']; exact fun _ => .inl), ?_⟩
  exact .completed (.subscription tradeNo) ⟨order.userId, 0⟩ hfrom hto hothers
    ⟨order, horder, rfl, by rw [← hw'], by rw [← hw']⟩

/-- The orders, and what is held of them, are as they were. -/
def SameOrders (w w' : World) : Prop :=
  w'.topUps = w.topUps ∧ w'.redemptions = w.redemptions ∧ w'.orders = w.orders ∧ w'.heldTopUps = w.heldTopUps ∧
    w'.heldOrders = w.heldOrders

instance : IsPreorder World SameOrders where
  refl _ := ⟨rfl, rfl, rfl, rfl, rfl⟩
  trans _ _ _ h h' := ⟨h'.1.trans h.1, h'.2.1.trans h.2.1, h'.2.2.1.trans h.2.2.1, h'.2.2.2.1.trans h.2.2.2.1,
    h'.2.2.2.2.trans h.2.2.2.2⟩

theorem sameOrders_addQuota (id delta : ℤ) (w : World) : SameOrders w (addQuota id delta w) := by
  unfold addQuota
  cases w.users.get? id with
  | none => exact refl_of SameOrders w
  | some => exact ⟨rfl, rfl, rfl, rfl, rfl⟩

variable (env : WalletEnv)

theorem increaseUserQuota_sameOrders (id quota : ℤ) (db : Bool) :
    Keeps SameOrders (increaseUserQuota env id quota db) := by
  refine keeps_rejectIf_bind (keeps_rejectIf_bind (keeps_bind ?_ fun _ => keeps_pure none))
  refine keeps_ite (keeps_modify fun _ => ⟨rfl, rfl, rfl, rfl, rfl⟩) ?_
  exact keeps_bind keeps_get fun _ => keeps_require_bind fun _ =>
    keeps_rejectIf_bind (keeps_modify (sameOrders_addQuota id quota))

theorem createCheckin_sameOrders (checkin : Checkin) : Keeps SameOrders (createCheckin checkin) :=
  keeps_bind keeps_get fun _ => keeps_rejectIf_bind (keeps_modify fun _ => ⟨rfl, rfl, rfl, rfl, rfl⟩)

/-- A call that is not about orders leaves them alone, and credits none. -/
theorem other_sameOrders (hcall : call.ofOrders = false) : Keeps SameOrders (call.op env) := by
  cases call with
  | increaseUserQuota id quota db => exact increaseUserQuota_sameOrders env id quota db
  | decreaseUserQuota id quota =>
    refine keeps_rejectIf_bind (keeps_bind ?_ fun _ => keeps_pure none)
    exact keeps_ite (keeps_modify fun _ => ⟨rfl, rfl, rfl, rfl, rfl⟩) (keeps_modify (sameOrders_addQuota id (-quota)))
  | takeBatch => exact keeps_bind (keeps_modify fun _ => ⟨rfl, rfl, rfl, rfl, rfl⟩) fun _ => keeps_pure none
  | writeBatch =>
    refine keeps_bind keeps_get fun _ => keeps_require_bind fun taken => keeps_bind (keeps_modify fun w => ?_)
      fun _ => keeps_pure none
    obtain ⟨htopUps, hcodes, horders, hheldTopUps, hheldOrders⟩ := sameOrders_addQuota taken.1 taken.2 w
    exact ⟨htopUps, hcodes, horders, hheldTopUps, hheldOrders⟩
  | userCheckin checkin =>
    refine keeps_ite ?_ ?_
    · exact keeps_bind (createCheckin_sameOrders checkin) fun _ =>
        keeps_orUndo (increaseUserQuota_sameOrders env _ _ true) _
    · exact keeps_transaction (keeps_bind (createCheckin_sameOrders checkin) fun _ =>
        keeps_bind (keeps_modify (sameOrders_addQuota _ _)) fun _ => keeps_pure none)
  | adjustWallet userId delta =>
    refine keeps_transaction (keeps_bind keeps_get fun _ => keeps_require_bind fun _ => keeps_ite (keeps_pure none) ?_)
    exact keeps_rejectIf_bind (keeps_bind (keeps_modify (sameOrders_addQuota userId delta)) fun _ =>
      keeps_rejectIf_bind (keeps_pure none))
  | transferAffQuotaToQuota =>
    exact keeps_rejectIf_bind (keeps_transaction (keeps_bind keeps_get fun _ => keeps_require_bind fun _ =>
      keeps_rejectIf_bind (keeps_bind (keeps_modify fun _ => ⟨rfl, rfl, rfl, rfl, rfl⟩) fun _ => keeps_pure none)))
  | _ => cases hcall

theorem other_order (hcall : call.ofOrders = false) : call.order = none := by
  cases call <;> first | rfl | cases hcall

/-- Every call that succeeds. -/
theorem op_steps (hk : Kinds w) (call : WalletCall) : wp (call.op env) (Steps call w) w := by
  cases hcall : call.ofOrders with
  | false =>
    intro result w' hrun
    obtain ⟨htopUps, hcodes, horders, hheldTopUps, hheldOrders⟩ := other_sameOrders env hcall w result w' hrun
    have hsteps : Steps call w none w' :=
      same_steps hk htopUps hcodes horders hheldTopUps hheldOrders fun h => by
        rw [hcall] at h
        cases h
    unfold Steps at hsteps ⊢
    rw [other_order hcall]
    cases result with
    | none => exact hsteps
    | some => exact hsteps
  | true =>
    cases call with
    | insertTopUp text topUp => exact insertTopUp_steps hk text topUp
    | rechargeEpay tradeNo | recharge tradeNo | rechargeCreem tradeNo
    | rechargeWaffo tradeNo | rechargeWaffoPancake tradeNo | manualCompleteTopUp tradeNo =>
      exact completeTopUp_steps hk _ _ _ _ _ tradeNo rfl
    | updatePendingTopUpStatus tradeNo expected target => exact updatePendingTopUpStatus_steps hk tradeNo expected target
    | readFailedTopUp tradeNo => exact readFailedTopUp_steps hk tradeNo
    | saveFailedTopUp request => exact saveFailedTopUp_steps hk request
    | insertRedemption redemption => exact insertRedemption_steps hk redemption
    | redeem key userId now => exact redeem_steps hk key userId now
    | readRedemption key =>
      show wp (readRedemption key) _ w
      unfold readRedemption
      simp only [wp_bind, wp_get, wp_require, wp_pure, wp_modify]
      intro _ _
      exact same_steps hk rfl rfl rfl rfl rfl fun _ => ⟨rfl, rfl⟩
    | saveRedemption request edit => exact saveRedemption_steps hk request edit
    | insertSubscriptionOrder text order => exact insertSubscriptionOrder_steps hk text order
    | completeSubscriptionOrder tradeNo payload expected method plan =>
      exact completeSubscriptionOrder_steps hk tradeNo payload expected method plan
    | expireSubscriptionOrder tradeNo expected => exact expireSubscriptionOrder_steps hk tradeNo expected
    | saveFailedOrder request => exact saveFailedOrder_steps hk request
    | _ => cases hcall

/-- Every call, failed or not. -/
theorem order_step (hk : Kinds w) (call : WalletCall) :
    Kinds (call.op env w).2 ∧ OrderStep call w (credited env w call) (call.op env w).2 := by
  rcases hrun : call.op env w with ⟨e | result, w'⟩
  · have hsame := op_atomic env call w e w' hrun
    subst hsame
    have hnone : credited env w' call = none := by
      unfold credited
      rw [hrun]
      rfl
    rw [hnone]
    exact ⟨hk, .same (fun _ => rfl) fun _ => ⟨rfl, rfl⟩⟩
  · have hsteps := op_steps env hk call result w' hrun
    have hresult : credited env w call = result.bind fun c => call.order.map fun key => (key, c) := by
      unfold credited
      rw [hrun]
      rfl
    rw [hresult]
    exact hsteps

/-! ## Runs -/

/-- The credits of an order are one if it has succeeded, and none otherwise. -/
def Settled (w : World) (log : List (OrderKey × Credit)) : Prop :=
  ∀ key, (log.map Prod.fst).count key = if orderStatus w key = some .success then 1 else 0

/-- What a call promises of the orders. -/
structure StepKept (env : WalletEnv) (w : World) (call : WalletCall) : Prop where
  /-- An error changes nothing. -/
  unchanged : ∀ e w', call.op env w = (.error e, w') → w' = w
  /-- An order that is not pending is never pending again. -/
  leaves    : ∀ key status, orderStatus w key = some status → status ≠ .pending →
    ∃ status', orderStatus (call.op env w).2 key = some status' ∧ status' ≠ .pending
  /-- A completion gives what it says. -/
  given     : ∀ key c, credited env w call = some (key, c) → Given w (call.op env w).2 key c
  /-- No other call on an order touches a wallet. -/
  quiet     : call.ofOrders = true → credited env w call = none → Quiet w (call.op env w).2

/-- Along a run, from the credits so far. -/
def OrdersKept (env : WalletEnv) : World → List (OrderKey × Credit) → List WalletCall → Prop
  | w, log, [] => Settled w log
  | w, log, call :: calls => Settled w log ∧ StepKept env w call ∧
    OrdersKept env (call.op env w).2 (log ++ (credited env w call).toList) calls

/-- A copy that is saved leaves a success a success and makes none, and makes no order pending that was not. -/
def InTime (w : World) (call : WalletCall) : Prop :=
  ∀ key status, savedOrder w call = some (key, status) → (orderStatus w key = some .success ↔ status = .success) ∧
    (status = .pending → orderStatus w key = none ∨ orderStatus w key = some .pending)

/-- Every save of a run is in time. -/
def SavesInTime (env : WalletEnv) : World → List WalletCall → Prop
  | _, [] => True
  | w, call :: calls => InTime w call ∧ SavesInTime env (call.op env w).2 calls

theorem stepKept (hk : Kinds w) (htime : InTime w call) : StepKept env w call := by
  have hstep := (order_step env hk call).2
  generalize hnext : (call.op env w).2 = w' at hstep
  generalize hcredit : credited env w call = credit at hstep
  refine ⟨fun e w'' hrun => op_atomic env call w e w'' hrun, ?_, ?_, ?_⟩
  · rw [hnext]
    intro key status hstatus hleft
    -- the order that is moved was pending, or was not there; the others are as they were
    have hother : orderStatus w' key = orderStatus w key →
        ∃ status', orderStatus w' key = some status' ∧ status' ≠ .pending :=
      fun heq => ⟨status, heq.trans hstatus, hleft⟩
    cases hstep with
    | same hsame => exact hother (hsame key)
    | moved key' _ hfrom _ _ hothers =>
      by_cases hkey : key = key'
      · subst hkey
        rw [hstatus] at hfrom
        rcases hfrom with hfrom | hfrom
        · cases hfrom
        · exact absurd (some.inj hfrom) hleft
      · exact hother (hothers key hkey)
    | completed key' _ _ hto hothers =>
      by_cases hkey : key = key'
      · subst hkey
        exact ⟨.success, hto, nofun⟩
      · exact hother (hothers key hkey)
    | saved key' status' hsaved hto hothers =>
      by_cases hkey : key = key'
      · subst hkey
        refine ⟨status', hto, fun hpending => ?_⟩
        rcases (htime key status' hsaved).2 hpending with hnone | hwas
        · rw [hstatus] at hnone
          cases hnone
        · rw [hstatus] at hwas
          exact hleft (some.inj hwas)
      · exact hother (hothers key hkey)
  · rw [hnext, hcredit]
    rintro key c rfl
    cases hstep with
    | completed _ _ _ _ _ hgiven => exact hgiven
  · rw [hnext, hcredit]
    rintro hcall rfl
    cases hstep with
    | same _ hquiet => exact hquiet hcall
    | moved _ _ _ _ _ _ hquiet => exact hquiet
    | saved _ _ _ _ _ hquiet => exact hquiet

/-- The credits agree with the statuses after a call that saves nothing too late. -/
theorem settled_step (hk : Kinds w) {log : List (OrderKey × Credit)} (hs : Settled w log)
    (htime : InTime w call) :
    Settled (call.op env w).2 (log ++ (credited env w call).toList) := by
  have hstep := (order_step env hk call).2
  generalize (call.op env w).2 = w' at hstep
  generalize credited env w call = credit at hstep
  intro key
  have hbefore := hs key
  rw [map_append, count_append, hbefore]
  cases hstep with
  | same hsame =>
    rw [hsame key]
    rfl
  | moved key' _ hfrom hto hnot hothers =>
    show (if orderStatus w key = some .success then 1 else 0) + 0 = _
    by_cases hkey : key = key'
    · subst hkey
      have hwas : orderStatus w key ≠ some .success := by
        rcases hfrom with hfrom | hfrom <;> rw [hfrom] <;> exact nofun
      have his : orderStatus w' key ≠ some .success := by
        rw [hto]
        exact fun h => hnot (some.inj h)
      rw [if_neg hwas, if_neg his]
    · rw [hothers key hkey]
      rfl
  | completed key' _ hfrom hto hothers =>
    show (if orderStatus w key = some .success then 1 else 0) + [key'].count key = _
    by_cases hkey : key = key'
    · subst hkey
      have hwas : orderStatus w key ≠ some .success := by
        rw [hfrom]
        exact nofun
      rw [if_neg hwas, if_pos hto, count_singleton_self]
    · have hne : ¬ (key' == key) = true := by
        rw [beq_iff_eq]
        exact fun h => hkey h.symm
      have hzero : [key'].count key = 0 := by
        rw [count_singleton, if_neg hne]
      rw [hothers key hkey, hzero, Nat.add_zero]
  | saved key' status hsaved hto hothers =>
    show (if orderStatus w key = some .success then 1 else 0) + 0 = _
    by_cases hkey : key = key'
    · subst hkey
      have hsame : orderStatus w' key = some .success ↔ orderStatus w key = some .success := by
        rw [hto, some.injEq]
        exact (htime key status hsaved).1.symm
      simp only [hsame, Nat.add_zero]
    · rw [hothers key hkey]
      rfl

/-- What is saved is there afterwards, and nobody is credited. -/
theorem save_overwrites (hk : Kinds w) {key : OrderKey} {status : TopUpStatus}
    (hsaved : savedOrder w call = some (key, status)) :
    orderStatus (call.op env w).2 key = some status ∧ credited env w call = none := by
  cases call with
  | saveFailedTopUp request =>
    obtain ⟨topUp, htopUp, heq⟩ := map_eq_some_iff.1 hsaved
    cases heq
    have hrun : saveFailedTopUp request w =
        (.ok none, { w with topUps := w.topUps.put { topUp with status := .failed } }) := by
      unfold saveFailedTopUp
      rw [bind_ok (get_run w), htopUp, bind_ok (require_some _ _ _), bind_ok (modify_run _ _)]
      rfl
    obtain ⟨text, htext⟩ := hk.heldTopUps topUp (mem_of_getElem? htopUp)
    constructor
    · have horder : topUp.tradeNo.order = .topUp text := by
        rw [htext]
        rfl
      show orderStatus (saveFailedTopUp request w).2 topUp.tradeNo.order = _
      rw [hrun, horder]
      show ((w.topUps.put { topUp with status := .failed }).get? (.topUp text)).map TopUp.status = _
      rw [get?_put, if_pos htext]
      rfl
    · unfold credited
      rw [show (WalletCall.saveFailedTopUp request).op env w = _ from hrun]
      rfl
  | saveFailedOrder request =>
    obtain ⟨order, horder, heq⟩ := map_eq_some_iff.1 hsaved
    cases heq
    have hrun : saveFailedOrder request w =
        (.ok none, { w with orders := w.orders.put { order with status := .failed } }) := by
      unfold saveFailedOrder
      rw [bind_ok (get_run w), horder, bind_ok (require_some _ _ _), bind_ok (modify_run _ _)]
      rfl
    constructor
    · show orderStatus (saveFailedOrder request w).2 _ = _
      rw [hrun]
      show ((w.orders.put { order with status := .failed }).get? order.tradeNo).map SubscriptionOrder.status = _
      rw [get?_put, if_pos rfl]
      rfl
    · unfold credited
      rw [show (WalletCall.saveFailedOrder request).op env w = _ from hrun]
      rfl
  | saveRedemption request edit =>
    obtain ⟨saved, hcode, heq⟩ := map_eq_some_iff.1 hsaved
    cases heq
    obtain ⟨held, hheld, hcode⟩ := bind_eq_some_iff.1 hcode
    obtain ⟨redemption, hedit, hcode⟩ := bind_eq_some_iff.1 hcode
    obtain ⟨row, hrow, hcode⟩ := bind_eq_some_iff.1 hcode
    have hedit : edit.apply held = .ok redemption := by
      cases hresult : edit.apply held with
      | error =>
        rw [hresult] at hedit
        cases hedit
      | ok =>
        rw [hresult] at hedit
        cases hedit
        rfl
    have hrun : saveRedemption request edit w = (.ok none, { w with redemptions := w.redemptions.put saved }) := by
      unfold saveRedemption
      rw [bind_ok (get_run w), hheld, bind_ok (require_some _ _ _), hedit]
      show ((require (w.redemptions.get? held.key) .notFound >>= _) : Txn World TopUpError (Option Credit)) w = _
      rw [hrow, bind_ok (require_some _ _ _), bind_ok (modify_run _ _), some.inj hcode]
      rfl
    constructor
    · show orderStatus (saveRedemption request edit w).2 _ = _
      rw [hrun]
      show ((w.redemptions.put saved).get? saved.key).map _ = _
      rw [get?_put, if_pos rfl]
      rfl
    · unfold credited
      rw [show (WalletCall.saveRedemption request edit).op env w = _ from hrun]
      rfl
  | _ => cases hsaved

theorem OrdersKept.settled {env : WalletEnv} {log : List (OrderKey × Credit)} {calls : List WalletCall}
    (h : OrdersKept env w log calls) : Settled w log := by
  cases calls with
  | nil => exact h
  | cons => exact h.1

theorem ordersKept_iff (calls : List WalletCall) : ∀ {w : World} {log : List (OrderKey × Credit)},
    Kinds w → Settled w log → (OrdersKept env w log calls ↔ SavesInTime env w calls) := by
  induction calls with
  | nil => exact fun _ hs => ⟨fun _ => trivial, fun _ => hs⟩
  | cons call _ ih =>
    intro w log hk hs
    have hk' := (order_step env hk call).1
    constructor
    · rintro ⟨-, hstep, hkept⟩
      have htime : InTime w call := by
        intro key status hsaved
        obtain ⟨hto, hnone⟩ := save_overwrites env hk hsaved
        constructor
        · -- as many credits as before
          have hafter := hkept.settled key
          rw [hnone, toList_none, append_nil, hs key, hto] at hafter
          by_cases hwas : orderStatus w key = some .success
          · by_cases his : some status = some TopUpStatus.success
            · exact ⟨fun _ => some.inj his, fun _ => hwas⟩
            · rw [if_pos hwas, if_neg his] at hafter
              cases hafter
          · by_cases his : some status = some TopUpStatus.success
            · rw [if_neg hwas, if_pos his] at hafter
              cases hafter
            · exact ⟨fun h => absurd h hwas, fun h => absurd (congrArg some h) his⟩
        · rintro rfl
          cases hwas : orderStatus w key with
          | none => exact Or.inl rfl
          | some was =>
            by_cases hpending : was = .pending
            · exact Or.inr (congrArg some hpending)
            · obtain ⟨status', hstatus', hleft⟩ := hstep.leaves key was hwas hpending
              rw [hto] at hstatus'
              exact absurd (some.inj hstatus').symm hleft
      exact ⟨htime, (ih hk' (settled_step env hk hs htime)).1 hkept⟩
    · rintro ⟨htime, hall⟩
      exact ⟨hs, stepKept env hk htime, (ih hk' (settled_step env hk hs htime)).2 hall⟩

/-- There are no orders yet, and nothing is held of any. -/
structure NoOrders (w : World) : Prop where
  topUps      : w.topUps.rows = []
  orders      : w.orders.rows = []
  redemptions : w.redemptions.rows = []
  heldTopUps  : w.heldTopUps = []
  heldOrders  : w.heldOrders = []

theorem NoOrders.kinds (h : NoOrders w) : Kinds w where
  topUps := fun t ht => by
    rw [h.topUps] at ht
    cases ht
  orders := fun o ho => by
    rw [h.orders] at ho
    cases ho
  heldTopUps := fun t ht => by
    rw [h.heldTopUps] at ht
    cases ht
  heldOrders := fun o ho => by
    rw [h.heldOrders] at ho
    cases ho

theorem NoOrders.settled (h : NoOrders w) : Settled w [] := by
  intro key
  have hnone : orderStatus w key = none := by
    cases key with
    | topUp => exact congrArg (Option.map _) (get?_eq_none.2 (by simp [h.topUps]))
    | code => exact congrArg (Option.map _) (get?_eq_none.2 (by simp [h.redemptions]))
    | subscription => exact congrArg (Option.map _) (get?_eq_none.2 (by simp [h.orders]))
  rw [hnone]
  rfl

/-- Along every run from a world without orders, the orders are kept exactly if every save of a copy is in time. -/
theorem orders_iff (env : WalletEnv) {w : World} (hstart : NoOrders w) (calls : List WalletCall) :
    OrdersKept env w [] calls ↔ SavesInTime env w calls :=
  ordersKept_iff env calls hstart.kinds hstart.settled

/-- A checkout with Waffo asks for the payment when the order is there already. -/
def waffoTopUp : TopUp := ⟨.topUp "WAFFO-1", 1, 2, 2, "card", .waffo, .pending⟩

/-- The order is paid for and the callback repeated. -/
theorem orders_waffo : OrdersKept ⟨false, false, 500000⟩ (oneWallet 0) []
    [.insertTopUp "WAFFO-1" waffoTopUp, .rechargeWaffo (.topUp "WAFFO-1"), .rechargeWaffo (.topUp "WAFFO-1")] := by
  have hstart : NoOrders (oneWallet 0) := ⟨rfl, rfl, rfl, rfl, rfl⟩
  refine (orders_iff ⟨false, false, 500000⟩ hstart _).2 ⟨?_, ?_, ?_, trivial⟩ <;>
    exact fun key status hsaved => by cases hsaved

/-- The administrator completes the order while the checkout still asks for the payment; the request fails, and so, with its
    copy, does the order. -/
theorem stale_failure : ¬ ∀ (env : WalletEnv) (w : World) (calls : List WalletCall), NoOrders w →
    OrdersKept env w [] calls := by
  intro hkept
  have hstart : NoOrders (oneWallet 0) := ⟨rfl, rfl, rfl, rfl, rfl⟩
  have hrun := hkept ⟨false, false, 500000⟩ (oneWallet 0)
    [.insertTopUp "WAFFO-1" waffoTopUp, .manualCompleteTopUp (.topUp "WAFFO-1"), .saveFailedTopUp 0] hstart
  have hsettled : Settled _ _ := hrun.2.2.2.2.2.2
  have hcredits := hsettled (.topUp "WAFFO-1")
  revert hcredits
  decide +kernel

end NovaMaas.Wallet
