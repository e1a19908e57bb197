/-
  The other ways in which a wallet grows (model/checkin.go, model/user.go, model/utils.go, model/billing_ledger.go), and the
  calls and runs of all of them.

  `asks` is what a call adds to whose wallet, in the world that it finds, if nothing stops it.  Nothing of the program reads
  it: it is there to say which increases exceed the ceiling.
-/
import NovaMaas.Wallet.TopUp

namespace NovaMaas.Wallet

open Txn
open NovaMaas.Billing (maxWalletQuota)

/-! ## Quota -/

/-- How the program is set up. -/
structure WalletEnv where
  batchUpdateEnabled : Bool
  sqlite             : Bool
  quotaPerUnit       : ℚ

/-- `UPDATE users SET quota = quota + delta WHERE id = ?`; no row is no error. -/
def addQuota (id delta : ℤ) (w : World) : World :=
  match w.users.get? id with
  | none => w
  | some user => { w with users := w.users.put { user with quota := user.quota + delta } }

/-- The critical section of `addNewRecord`, for the quota of a user. -/
def addNewRecord (id value : ℤ) (w : World) : World :=
  { w with
    userQuotaStore := w.userQuotaStore.put
      (id, match w.userQuotaStore.get? id with
        | none => value
        | some entry => BatchUpdate.addDelta entry.2 value) }

/-- `increaseUserQuota`: the update is for a wallet with room. -/
def increaseUserQuotaDB (id quota : ℤ) : Txn World TopUpError Unit := do
  let w ← get
  let user ← require (w.users.get? id) .userNotFound
  rejectIf (maxWalletQuota - quota < user.quota) .quotaLimit
  modify (addQuota id quota)

/-- `IncreaseUserQuota`. -/
def increaseUserQuota (env : WalletEnv) (id quota : ℤ) (db : Bool) : Txn World TopUpError (Option Credit) := do
  rejectIf (quota < 0) .invalidQuota
  rejectIf (maxWalletQuota < quota) .invalidQuota
  (if db = false ∧ env.batchUpdateEnabled = true then modify (addNewRecord id quota) else increaseUserQuotaDB id quota)
  pure none

/-- `DecreaseUserQuota`. -/
def decreaseUserQuota (env : WalletEnv) (id quota : ℤ) (db : Bool) : Txn World TopUpError (Option Credit) := do
  rejectIf (quota < 0) .invalidQuota
  (if db = false ∧ env.batchUpdateEnabled = true then modify (addNewRecord id (-quota)) else modify (addQuota id (-quota)))
  pure none

/-- `batchUpdate` takes the map of the quotas. -/
def takeBatch : Txn World TopUpError (Option Credit) := do
  modify fun w => { w with userQuotaStore := Table.empty, flush := w.flush ++ w.userQuotaStore.rows }
  pure none

/-- `updateUserQuotaUsedQuotaAndRequestCount`, for one of the entries taken. -/
def writeBatch (entry : ℕ) : Txn World TopUpError (Option Credit) := do
  let w ← get
  let taken ← require w.flush[entry]? .notFound
  modify fun w => { addQuota taken.1 taken.2 w with flush := w.flush.eraseIdx entry }
  pure none

/-! ## Check-ins, adjustments and invitations -/

/-- The row of a check-in; the day of a user is unique. -/
def createCheckin (checkin : Checkin) : Txn World TopUpError Unit := do
  let w ← get
  rejectIf ((w.checkins.get? checkin.day).isSome = true) .taken
  modify fun w => { w with checkins := w.checkins.put checkin }

/-- `userCheckinWithTransaction`. -/
def userCheckinWithTransaction (checkin : Checkin) : Txn World TopUpError (Option Credit) :=
  transaction do
    createCheckin checkin
    modify (addQuota checkin.userId checkin.quotaAwarded)
    pure none

/-- A statement that is followed by another one when it fails. -/
def orUndo {α : Type} (m : Txn World TopUpError α) (undo : World → World) : Txn World TopUpError α := fun w =>
  match m w with
  | (.ok a, w') => (.ok a, w')
  | (.error e, w') => (.error e, undo w')

/-- `userCheckinWithoutTransaction`: without room for the award the row is deleted again. -/
def userCheckinWithoutTransaction (env : WalletEnv) (checkin : Checkin) : Txn World TopUpError (Option Credit) := do
  createCheckin checkin
  orUndo (increaseUserQuota env checkin.userId checkin.quotaAwarded true) fun w =>
    { w with checkins := w.checkins.deleteWhere fun row => row.day = checkin.day }

/-- The end of `UserCheckin`. -/
def userCheckin (env : WalletEnv) (checkin : Checkin) : Txn World TopUpError (Option Credit) :=
  if env.sqlite = true then userCheckinWithoutTransaction env checkin else userCheckinWithTransaction checkin

/-- What the ledger says of an adjustment: whether its event is known, and whether its entry cannot be written. -/
structure LedgerAnswer where
  known       : Bool
  entryFails : Bool

/-- The wallet side of an adjustment: of `PostBillingAdjustment`, and of the adjustments and refunds of tasks. -/
def adjustWallet (userId delta : ℤ) (ledger : LedgerAnswer) : Txn World TopUpError (Option Credit) :=
  transaction do
    let w ← get
    let user ← require (w.users.get? userId) .userNotFound
    if ledger.known = true then pure none
    else do
      rejectIf (maxWalletQuota < delta ∨ delta < -maxWalletQuota ∨ maxWalletQuota - delta < user.quota ∨
        user.quota < -maxWalletQuota - delta) .quotaLimit
      modify (addQuota userId delta)
      rejectIf (ledger.entryFails = true) .failed
      pure none

/-- `TransferAffQuotaToQuota`. -/
def transferAffQuotaToQuota (env : WalletEnv) (userId quota : ℤ) : Txn World TopUpError (Option Credit) := do
  rejectIf ((quota : ℚ) < env.quotaPerUnit) .invalidQuota
  transaction do
    let w ← get
    let user ← require (w.users.get? userId) .userNotFound
    rejectIf (user.affQuota < quota) .failed
    modify fun w => { w with
      users := w.users.put { user with affQuota := user.affQuota - quota, quota := user.quota + quota } }
    pure none

/-! ## Calls -/

inductive WalletCall where
  | insertTopUp (text : String) (topUp : TopUp)
  | rechargeEpay (tradeNo : TradeNo) (actualPaymentMethod : String)
  | recharge (tradeNo : TradeNo) (customerId : String)
  | rechargeCreem (tradeNo : TradeNo) (customerEmail : String)
  | rechargeWaffo (tradeNo : TradeNo)
  | rechargeWaffoPancake (tradeNo : TradeNo)
  | manualCompleteTopUp (tradeNo : TradeNo)
  | updatePendingTopUpStatus (tradeNo : TradeNo) (expected : Option PaymentProvider) (target : TopUpEnd)
  | readFailedTopUp (tradeNo : TradeNo)
  | saveFailedTopUp (request : ℕ)
  | insertRedemption (redemption : Redemption)
  | redeem (key : String) (userId now : ℤ)
  | readRedemption (key : String)
  | saveRedemption (request : ℕ) (edit : RedemptionEdit)
  | insertSubscriptionOrder (text : String) (order : SubscriptionOrder)
  | completeSubscriptionOrder (tradeNo : TradeNo) (providerPayload : String) (expected : Option PaymentProvider)
      (actualPaymentMethod : String) (plan : PlanAnswer)
  | expireSubscriptionOrder (tradeNo : TradeNo) (expected : Option PaymentProvider)
  | saveFailedOrder (request : ℕ)
  | increaseUserQuota (id quota : ℤ) (db : Bool)
  | decreaseUserQuota (id quota : ℤ) (db : Bool)
  | takeBatch
  | writeBatch (entry : ℕ)
  | userCheckin (checkin : Checkin)
  | adjustWallet (userId delta : ℤ) (ledger : LedgerAnswer)
  | transferAffQuotaToQuota (userId quota : ℤ)

/-- What a call does. -/
def WalletCall.op (env : WalletEnv) : WalletCall → Txn World TopUpError (Option Credit)
  | .insertTopUp text topUp => Wallet.insertTopUp text topUp
  | .rechargeEpay tradeNo method => Wallet.rechargeEpay env.quotaPerUnit tradeNo method
  | .recharge tradeNo customerId => Wallet.recharge env.quotaPerUnit tradeNo customerId
  | .rechargeCreem tradeNo email => Wallet.rechargeCreem tradeNo email
  | .rechargeWaffo tradeNo => Wallet.rechargeWaffo env.quotaPerUnit tradeNo
  | .rechargeWaffoPancake tradeNo => Wallet.rechargeWaffoPancake env.quotaPerUnit tradeNo
  | .manualCompleteTopUp tradeNo => Wallet.manualCompleteTopUp env.quotaPerUnit tradeNo
  | .updatePendingTopUpStatus tradeNo expected target => Wallet.updatePendingTopUpStatus tradeNo expected target
  | .readFailedTopUp tradeNo => Wallet.readFailedTopUp tradeNo
  | .saveFailedTopUp request => Wallet.saveFailedTopUp request
  | .insertRedemption redemption => Wallet.insertRedemption redemption
  | .redeem key userId now => Wallet.redeem key userId now
  | .readRedemption key => Wallet.readRedemption key
  | .saveRedemption request edit => Wallet.saveRedemption request edit
  | .insertSubscriptionOrder text order => Wallet.insertSubscriptionOrder text order
  | .completeSubscriptionOrder tradeNo payload expected method plan =>
    Wallet.completeSubscriptionOrder tradeNo payload expected method plan
  | .expireSubscriptionOrder tradeNo expected => Wallet.expireSubscriptionOrder tradeNo expected
  | .saveFailedOrder request => Wallet.saveFailedOrder request
  | .increaseUserQuota id quota db => Wallet.increaseUserQuota env id quota db
  | .decreaseUserQuota id quota db => Wallet.decreaseUserQuota env id quota db
  | .takeBatch => Wallet.takeBatch
  | .writeBatch entry => Wallet.writeBatch entry
  | .userCheckin checkin => Wallet.userCheckin env checkin
  | .adjustWallet userId delta ledger => Wallet.adjustWallet userId delta ledger
  | .transferAffQuotaToQuota userId quota => Wallet.transferAffQuotaToQuota env userId quota

end NovaMaas.Wallet
