/-
  Orders that add to a wallet (model/topup.go, model/redemption.go, model/subscription.go); `Increases` has the other ways.

  An order is paid for: a top-up, a redemption code, an order of a subscription.  Each is completed in one transaction that
  locks its row, looks at its status, and credits its user.  The providers and the administrator have their own copy of the
  sequence, with their own formula for the quota; they are one definition here (`completeTopUp`) at their own values.  An
  order is also closed without a payment: by a transaction of the same shape, or by a request that has read the order
  BEFORE, holds the copy, and saves it with a new status.

  Prices are exact decimals.  The trade numbers of top-ups and of subscriptions begin with different prefixes, so a
  number has its kind.
-/
import NovaMaas.Billing.Schema
import NovaMaas.Quota.BatchUpdate

namespace NovaMaas.Wallet

open Txn
open NovaMaas.Billing (maxWalletQuota)

/-! ## Rows -/

/-- `common.TopUpStatus…`. -/
inductive TopUpStatus where
  | pending | success | failed | expired
  deriving DecidableEq

/-- The statuses that an order is closed with when it is not paid for. -/
inductive TopUpEnd where
  | failed | expired

def TopUpEnd.status : TopUpEnd → TopUpStatus
  | .failed => .failed
  | .expired => .expired

/-- `PaymentProvider…`; a mirror of a subscription has none. -/
inductive PaymentProvider where
  | epay | stripe | creem | waffo | waffoPancake | balance | none
  deriving DecidableEq

/-- A trade number, by the prefix of its kind. -/
inductive TradeNo where
  | topUp (text : String)
  | subscription (text : String)
  deriving DecidableEq

structure User where
  id             : ℤ
  quota          : ℤ
  affQuota       : ℤ := 0
  email          : String := ""
  stripeCustomer : String := ""
  deriving DecidableEq

structure TopUp where
  tradeNo         : TradeNo
  userId          : ℤ
  amount          : ℤ
  money           : ℚ
  paymentMethod   : String
  paymentProvider : PaymentProvider
  status          : TopUpStatus

structure SubscriptionOrder where
  tradeNo         : TradeNo
  userId          : ℤ
  planId          : ℤ
  money           : ℚ
  paymentMethod   : String
  paymentProvider : PaymentProvider
  status          : TopUpStatus
  providerPayload : String := ""

/-- `common.RedemptionCodeStatus…`. -/
inductive RedemptionStatus where
  | enabled | disabled | used
  deriving DecidableEq

structure Redemption where
  key         : String
  quota       : ℤ
  status      : RedemptionStatus
  usedUserId  : ℤ := 0
  expiredTime : ℤ := 0

structure Checkin where
  userId       : ℤ
  checkinDate  : String
  quotaAwarded : ℤ

/-- The unique index of the check-ins. -/
def Checkin.day (c : Checkin) : ℤ × String := (c.userId, c.checkinDate)

/-- `UserSubscription`: whose, and of which plan. -/
structure UserSubscription where
  userId : ℤ
  planId : ℤ

/-- The tables, the map of quotas that wait in memory, the entries that a flush has taken and not yet written, and the
    copies of orders and codes that requests hold. -/
structure World where
  users          : Table User.id
  topUps         : Table TopUp.tradeNo
  orders         : Table SubscriptionOrder.tradeNo
  redemptions    : Table Redemption.key
  checkins       : Table Checkin.day
  subscriptions  : List UserSubscription
  userQuotaStore : BatchUpdate.Store
  flush          : List (ℤ × ℤ)
  heldTopUps     : List TopUp
  heldOrders     : List SubscriptionOrder
  heldCodes      : List Redemption

inductive TopUpError where
  | notFound | methodMismatch | statusInvalid | invalidQuota | quotaLimit | userNotFound | expired | taken | failed

/-! ## Quotas -/

/-- `decimal.Round(0)`: half away from zero. -/
def roundDecimal (x : ℚ) : ℤ := if x < 0 then -⌊-x + 1 / 2⌋ else ⌊x + 1 / 2⌋

/-- `WalletQuotaFromDecimalStrict`: the conversion to a float is exact within the bounds, and keeps to its side of them. -/
def walletQuotaFromDecimalStrict (x : ℚ) : Option ℤ :=
  if -maxWalletQuota ≤ roundDecimal x ∧ roundDecimal x ≤ maxWalletQuota then some (roundDecimal x) else none

/-- A positive quota, or none. -/
def positiveQuota (x : ℚ) : Option ℤ := (walletQuotaFromDecimalStrict x).filter fun q => decide (0 < q)

/-- What the payment says of its user. -/
structure UserUpdates where
  stripeCustomer : Option String := none
  email          : String := ""

/-- The columns that are written with the quota; an email only if the user has none. -/
def UserUpdates.apply (updates : UserUpdates) (user : User) : User :=
  { user with
    stripeCustomer := updates.stripeCustomer.getD user.stripeCustomer
    email := if user.email = "" then updates.email else user.email }

/-- `creditTopUpQuota`. -/
def creditTopUpQuota (userId creditedQuota : ℤ) (updates : UserUpdates) : Txn World TopUpError Unit := do
  rejectIf (creditedQuota ≤ 0 ∨ maxWalletQuota < creditedQuota) .invalidQuota
  let w ← get
  let user ← require (w.users.get? userId) .userNotFound
  rejectIf (maxWalletQuota - creditedQuota < user.quota) .quotaLimit
  modify fun w => { w with users := w.users.put { updates.apply user with quota := user.quota + creditedQuota } }

/-! ## Top-ups -/

/-- What an order has given to a user. -/
structure Credit where
  userId : ℤ
  quota  : ℤ

/-- The sequence that completes a top-up: it is there and of the provider, if one is expected; if it has succeeded, that is
    no error where repeats are expected; it is pending; it succeeds and its user is credited. -/
def completeTopUp (expected : Option PaymentProvider) (repeats : Bool) (quotaOf : TopUp → Option ℤ)
    (method : Option String) (updates : UserUpdates) (tradeNo : TradeNo) : Txn World TopUpError (Option Credit) :=
  transaction do
    let w ← get
    let topUp ← require (w.topUps.get? tradeNo) .notFound
    rejectIf (expected ≠ none ∧ expected ≠ some topUp.paymentProvider) .methodMismatch
    if topUp.status = .success ∧ repeats = true then pure none
    else do
      rejectIf (topUp.status ≠ .pending) .statusInvalid
      let quota ← require (quotaOf topUp) .invalidQuota
      modify fun w => { w with
        topUps := w.topUps.put { topUp with status := .success, paymentMethod := method.getD topUp.paymentMethod } }
      creditTopUpQuota topUp.userId quota updates
      pure (some ⟨topUp.userId, quota⟩)

/-- The quota of an amount of units. -/
def amountQuota (quotaPerUnit : ℚ) (topUp : TopUp) : Option ℤ := positiveQuota (topUp.amount * quotaPerUnit)

/-- The quota of the money paid. -/
def moneyQuota (quotaPerUnit : ℚ) (topUp : TopUp) : Option ℤ := positiveQuota (topUp.money * quotaPerUnit)

/-- `RechargeEpay`. -/
def rechargeEpay (quotaPerUnit : ℚ) (tradeNo : TradeNo) (actualPaymentMethod : String) :=
  completeTopUp (some .epay) true (amountQuota quotaPerUnit)
    (if actualPaymentMethod = "" then none else some actualPaymentMethod) {} tradeNo

/-- `Recharge`, of Stripe. -/
def recharge (quotaPerUnit : ℚ) (tradeNo : TradeNo) (customerId : String) :=
  completeTopUp (some .stripe) false (moneyQuota quotaPerUnit) none { stripeCustomer := some customerId } tradeNo

/-- `RechargeCreem`: the amount is the quota. -/
def rechargeCreem (tradeNo : TradeNo) (customerEmail : String) :=
  completeTopUp (some .creem) false (fun topUp => positiveQuota topUp.amount) none { email := customerEmail } tradeNo

/-- `RechargeWaffo`. -/
def rechargeWaffo (quotaPerUnit : ℚ) (tradeNo : TradeNo) :=
  completeTopUp (some .waffo) true (amountQuota quotaPerUnit) none {} tradeNo

/-- `RechargeWaffoPancake`. -/
def rechargeWaffoPancake (quotaPerUnit : ℚ) (tradeNo : TradeNo) :=
  completeTopUp (some .waffoPancake) true (amountQuota quotaPerUnit) none {} tradeNo

/-- `ManualCompleteTopUp`. -/
def manualCompleteTopUp (quotaPerUnit : ℚ) (tradeNo : TradeNo) :=
  completeTopUp none true
    (fun topUp => if topUp.paymentProvider = .stripe then moneyQuota quotaPerUnit topUp else amountQuota quotaPerUnit topUp)
    none {} tradeNo

/-- `UpdatePendingTopUpStatus`. -/
def updatePendingTopUpStatus (tradeNo : TradeNo) (expected : Option PaymentProvider) (target : TopUpEnd) :
    Txn World TopUpError (Option Credit) :=
  transaction do
    let w ← get
    let topUp ← require (w.topUps.get? tradeNo) .notFound
    rejectIf (expected ≠ none ∧ expected ≠ some topUp.paymentProvider) .methodMismatch
    rejectIf (topUp.status ≠ .pending) .statusInvalid
    modify fun w => { w with topUps := w.topUps.put { topUp with status := target.status } }
    pure none

/-- The providers that are asked for a payment when the order is there already. -/
def asksAfterwards (provider : PaymentProvider) : Bool := provider = .waffo || provider = .waffoPancake

/-- A checkout creates a pending top-up; a request that asks for the payment afterwards holds it. -/
def insertTopUp (text : String) (topUp : TopUp) : Txn World TopUpError (Option Credit) := do
  let w ← get
  rejectIf ((w.topUps.get? (.topUp text)).isSome = true) .taken
  modify fun w => { w with
    topUps := w.topUps.put { topUp with tradeNo := .topUp text, status := .pending }
    heldTopUps := w.heldTopUps ++
      if asksAfterwards topUp.paymentProvider then [{ topUp with tradeNo := .topUp text, status := .pending }] else [] }
  pure none

/-- The first half of the callback of a payment by Stripe that has failed: the top-up is read, and is pending. -/
def readFailedTopUp (tradeNo : TradeNo) : Txn World TopUpError (Option Credit) := do
  let w ← get
  let topUp ← require (w.topUps.get? tradeNo) .notFound
  rejectIf (topUp.paymentProvider ≠ .stripe) .methodMismatch
  rejectIf (topUp.status ≠ .pending) .statusInvalid
  modify fun w => { w with heldTopUps := w.heldTopUps ++ [topUp] }
  pure none

/-- `topUp.Status = TopUpStatusFailed; topUp.Update()`, with a copy that was read before. -/
def saveFailedTopUp (request : ℕ) : Txn World TopUpError (Option Credit) := do
  let w ← get
  let topUp ← require w.heldTopUps[request]? .notFound
  modify fun w => { w with topUps := w.topUps.put { topUp with status := .failed } }
  pure none

/-! ## Redemption codes -/

/-- `Redeem`. -/
def redeem (key : String) (userId now : ℤ) : Txn World TopUpError (Option Credit) :=
  transaction do
    let w ← get
    let redemption ← require (w.redemptions.get? key) .notFound
    rejectIf (redemption.status ≠ .enabled) .statusInvalid
    rejectIf (redemption.expiredTime ≠ 0 ∧ redemption.expiredTime < now) .expired
    modify fun w => { w with redemptions := w.redemptions.put { redemption with status := .used, usedUserId := userId } }
    creditTopUpQuota userId redemption.quota {}
    pure (some ⟨userId, redemption.quota⟩)

/-- `Redemption.Insert`. -/
def insertRedemption (redemption : Redemption) : Txn World TopUpError (Option Credit) := do
  rejectIf (redemption.quota ≤ 0 ∨ maxWalletQuota < redemption.quota) .invalidQuota
  let w ← get
  rejectIf ((w.redemptions.get? redemption.key).isSome = true) .taken
  modify fun w => { w with redemptions := w.redemptions.put { redemption with status := .enabled } }
  pure none

/-- The first half of `UpdateRedemption`: the code is read. -/
def readRedemption (key : String) : Txn World TopUpError (Option Credit) := do
  let w ← get
  let redemption ← require (w.redemptions.get? key) .notFound
  modify fun w => { w with heldCodes := w.heldCodes ++ [redemption] }
  pure none

/-- What a request to `UpdateRedemption` changes: the status, or the other fields. -/
inductive RedemptionEdit where
  | statusOnly (status : RedemptionStatus)
  | fields (quota expiredTime now : ℤ)

/-- The copy with the change, and the checks of the handler and of `Redemption.Update`. -/
def RedemptionEdit.apply (held : Redemption) : RedemptionEdit → Except TopUpError Redemption
  | .statusOnly status =>
    if held.quota ≤ 0 ∨ maxWalletQuota < held.quota then .error .invalidQuota else .ok { held with status := status }
  | .fields quota expiredTime now =>
    if quota ≤ 0 ∨ maxWalletQuota < quota then .error .invalidQuota
    else if expiredTime ≠ 0 ∧ expiredTime < now then .error .expired
    else .ok { held with quota := quota, expiredTime := expiredTime }

/-- The second half: the copy is saved, its status with it; who has used the code is not written. -/
def saveRedemption (request : ℕ) (edit : RedemptionEdit) : Txn World TopUpError (Option Credit) := do
  let w ← get
  let held ← require w.heldCodes[request]? .notFound
  let redemption ← ofExcept (edit.apply held)
  let row ← require (w.redemptions.get? held.key) .notFound
  modify fun w => { w with redemptions := w.redemptions.put { redemption with usedUserId := row.usedUserId } }
  pure none

/-! ## Subscriptions -/

/-- What the plan of an order allows. -/
structure PlanAnswer where
  planFound   : Bool
  createFails : Bool

/-- `upsertSubscriptionTopUpTx`: the order is shown among the top-ups. -/
def upsertSubscriptionTopUpTx (order : SubscriptionOrder) : Txn World TopUpError Unit := do
  let w ← get
  match w.topUps.get? order.tradeNo with
  | none =>
    modify fun w => { w with
      topUps := w.topUps.put ⟨order.tradeNo, order.userId, 0, order.money, order.paymentMethod, .none, .success⟩ }
  | some topUp => do
    rejectIf (topUp.paymentMethod ≠ "" ∧ topUp.paymentMethod ≠ order.paymentMethod) .methodMismatch
    modify fun w => { w with
      topUps := w.topUps.put
        { topUp with money := order.money, paymentMethod := order.paymentMethod, status := .success } }

/-- `CompleteSubscriptionOrder`. -/
def completeSubscriptionOrder (tradeNo : TradeNo) (providerPayload : String) (expected : Option PaymentProvider)
    (actualPaymentMethod : String) (plan : PlanAnswer) : Txn World TopUpError (Option Credit) :=
  transaction do
    let w ← get
    let order ← require (w.orders.get? tradeNo) .notFound
    rejectIf (expected ≠ none ∧ expected ≠ some order.paymentProvider) .methodMismatch
    if order.status = .success then pure none
    else do
      rejectIf (order.status ≠ .pending) .statusInvalid
      rejectIf (plan.planFound = false) .failed
      rejectIf ((w.users.get? order.userId).isNone = true) .userNotFound
      rejectIf (plan.createFails = true) .failed
      modify fun w => { w with subscriptions := w.subscriptions ++ [⟨order.userId, order.planId⟩] }
      upsertSubscriptionTopUpTx order
      modify fun w => { w with
        orders := w.orders.put
          { order with
            status := .success
            providerPayload := if providerPayload = "" then order.providerPayload else providerPayload
            paymentMethod := if actualPaymentMethod = "" then order.paymentMethod else actualPaymentMethod } }
      pure (some ⟨order.userId, 0⟩)

/-- `ExpireSubscriptionOrder`. -/
def expireSubscriptionOrder (tradeNo : TradeNo) (expected : Option PaymentProvider) :
    Txn World TopUpError (Option Credit) :=
  transaction do
    let w ← get
    let order ← require (w.orders.get? tradeNo) .notFound
    rejectIf (expected ≠ none ∧ expected ≠ some order.paymentProvider) .methodMismatch
    if order.status ≠ .pending then pure none
    else do
      modify fun w => { w with orders := w.orders.put { order with status := .expired } }
      pure none

/-- A checkout creates a pending order; a request that asks for the payment afterwards, and may then save it, holds it. -/
def insertSubscriptionOrder (text : String) (order : SubscriptionOrder) : Txn World TopUpError (Option Credit) := do
  let w ← get
  rejectIf ((w.orders.get? (.subscription text)).isSome = true) .taken
  modify fun w => { w with
    orders := w.orders.put { order with tradeNo := .subscription text, status := .pending }
    heldOrders := w.heldOrders ++
      if order.paymentProvider = .waffoPancake then [{ order with tradeNo := .subscription text, status := .pending }]
      else [] }
  pure none

/-- `order.Status = TopUpStatusFailed; order.Update()`, with a copy that was created before. -/
def saveFailedOrder (request : ℕ) : Txn World TopUpError (Option Credit) := do
  let w ← get
  let order ← require w.heldOrders[request]? .notFound
  modify fun w => { w with orders := w.orders.put { order with status := .failed } }
  pure none

end NovaMaas.Wallet
