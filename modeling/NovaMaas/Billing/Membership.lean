/-
  Subscriptions from purchase to expiry, and the group they put their user in (model/subscription.go,
  controller/subscription.go).

  A plan may name a group to raise the buyer to.  The subscription remembers the group it took the user from; when it
  ends, unless another raising subscription is active, the user goes to the plan's downgrade group or back.

  Ids are given out in order.  A user without a row is in the group "".
-/
import NovaMaas.Billing.Subscription

namespace NovaMaas.Billing

open Txn

/-! ## Rows -/

structure Member where
  id    : ℤ
  group : String

structure MemberDB where
  sub   : SubscriptionDB
  users : Table Member.id

inductive MemberError where
  | invalidPlan
  | invalidUserID
  | invalidUserSubscriptionID
  | purchaseLimit
  | durationNotPositive
  | customSecondsNotPositive
  | invalidDurationUnit
  | purchaseLimitNegative
  | totalAmountNegative
  | upgradeGroupUnknown
  | downgradeGroupUnknown
  | resetPeriodNotPositive
  | noActiveSubscription
  | recordNotFound
  | sub (e : SubscriptionError)

abbrev MemberTx (α : Type) : Type := Txn MemberDB MemberError α

/-- A body over the subscriptions alone. -/
def inSubs {α : Type} (m : SubTx α) : MemberTx α := fun s =>
  match m s.sub with
  | (.ok a, sub') => (.ok a, { s with sub := sub' })
  | (.error e, sub') => (.error (.sub e), { s with sub := sub' })

namespace MemberDB

/-- `getUserGroupByIdTx`. -/
def groupOf (s : MemberDB) (userID : ℤ) : String := ((s.users.get? userID).map Member.group).getD ""

def setGroup (s : MemberDB) (userID : ℤ) (group : String) : MemberDB :=
  { s with users := s.users.updateWhere (fun u => u.id = userID) (fun u => { u with group := group }) fun _ => rfl }

def putSub (s : MemberDB) (r : UserSubscription) : MemberDB := { s with sub := s.sub.putSub r }

def nextSubID (s : MemberDB) : ℤ := (s.sub.subs.rows.map UserSubscription.id).foldr max 0 + 1

end MemberDB

/-! ## Plans -/

/-- What `AdminCreateSubscriptionPlan` and `AdminUpdateSubscriptionPlan` make of a plan, given the groups there are. -/
def admitPlan (knownGroup : String → Bool) (plan : SubscriptionPlan) : Except MemberError SubscriptionPlan :=
  let plan := if plan.durationValue ≤ 0 ∧ plan.durationUnit ≠ .custom then { plan with durationValue := 1 } else plan
  let plan := { plan with upgradeGroup := trimSpace plan.upgradeGroup, downgradeGroup := trimSpace plan.downgradeGroup }
  if plan.maxPurchasePerUser < 0 then .error .purchaseLimitNegative
  else if plan.totalAmount < 0 then .error .totalAmountNegative
  else if plan.upgradeGroup ≠ "" ∧ knownGroup plan.upgradeGroup = false then .error .upgradeGroupUnknown
  else if plan.downgradeGroup ≠ "" ∧ knownGroup plan.downgradeGroup = false then .error .downgradeGroupUnknown
  else if plan.quotaResetPeriod = .custom ∧ plan.quotaResetCustomSeconds ≤ 0 then .error .resetPeriodNotPositive
  else .ok plan

/-- A plan is created, or written over the one of its id. -/
def savePlan (knownGroup : String → Bool) (plan : SubscriptionPlan) : MemberTx Unit := do
  let plan ← ofExcept (admitPlan knownGroup plan)
  modify fun s => { s with sub := { s.sub with plans := s.sub.plans.put plan } }

def calcPlanEndTime (cal : Calendar) (start : ℤ) (plan : SubscriptionPlan) : Except MemberError ℤ :=
  if plan.durationValue ≤ 0 ∧ plan.durationUnit ≠ .custom then .error .durationNotPositive
  else match plan.durationUnit with
    | .year => .ok (cal.addMonths start (12 * plan.durationValue))
    | .month => .ok (cal.addMonths start plan.durationValue)
    | .day => .ok (start + durationSeconds (plan.durationValue * 86400))
    | .hour => .ok (start + durationSeconds (plan.durationValue * 3600))
    | .custom =>
      if plan.customSeconds ≤ 0 then .error .customSecondsNotPositive
      else .ok (start + durationSeconds plan.customSeconds)
    | .invalid => .error .invalidDurationUnit

/-! ## Purchases -/

def purchases (s : MemberDB) (userID planID : ℤ) : ℕ :=
  (s.sub.subs.rows.filter fun sub => sub.userID = userID && sub.planID = planID).length

/-- The row of a new subscription. -/
def newSubscription (cal : Calendar) (now endUnix id userID : ℤ) (plan : SubscriptionPlan) (prevGroup : String) :
    UserSubscription where
  id                  := id
  userID              := userID
  planID              := plan.id
  amountTotal         := plan.totalAmount.toInt
  startTime           := now
  endTime             := endUnix
  lastResetTime       := if 0 < calcNextResetTime cal plan now endUnix then now else 0
  nextResetTime       := calcNextResetTime cal plan now endUnix
  upgradeGroup        := trimSpace plan.upgradeGroup
  prevUserGroup       := prevGroup
  downgradeGroup      := trimSpace plan.downgradeGroup
  allowWalletOverflow := plan.allowWalletOverflow

/-- `CreateUserSubscriptionFromPlanTx`. -/
def createUserSubscriptionFromPlan (cal : Calendar) (now userID : ℤ) (plan : SubscriptionPlan) :
    MemberTx UserSubscription := do
  rejectIf (plan.id = 0) .invalidPlan
  rejectIf (userID ≤ 0) .invalidUserID
  let s ← get
  rejectIf (0 < plan.maxPurchasePerUser ∧ plan.maxPurchasePerUser ≤ purchases s userID plan.id) .purchaseLimit
  let endUnix ← ofExcept (calcPlanEndTime cal now plan)
  let upgradeGroup := trimSpace plan.upgradeGroup
  if upgradeGroup ≠ "" ∧ s.groupOf userID ≠ upgradeGroup then do
    -- the group to go back to is the one of this moment, borrowed or not
    let sub := newSubscription cal now endUnix s.nextSubID userID plan (s.groupOf userID)
    modify (·.setGroup userID upgradeGroup)
    modify (·.putSub sub)
    pure sub
  else do
    let sub := newSubscription cal now endUnix s.nextSubID userID plan ""
    modify (·.putSub sub)
    pure sub

/-- What `CompleteSubscriptionOrder`, `AdminBindSubscription` and `PurchaseSubscriptionWithBalance` have in common. -/
def bindSubscription (cal : Calendar) (now userID planID : ℤ) : MemberTx UserSubscription :=
  transaction do
    let plan ← inSubs (getSubscriptionPlanById planID)
    createUserSubscriptionFromPlan cal now userID plan

/-! ## Ends -/

/-- The active subscriptions that raise their user. -/
def raising (userID now : ℤ) (sub : UserSubscription) : Bool :=
  isActive userID now sub && sub.upgradeGroup ≠ ""

/-- `downgradeUserGroupForSubscriptionTx`: the group to put the user in, as `sub` ends. -/
def downgradeTarget (s : MemberDB) (now : ℤ) (sub : UserSubscription) : Option String :=
  let downgradeGroup := trimSpace sub.downgradeGroup
  let upgradeGroup := trimSpace sub.upgradeGroup
  let currentGroup := s.groupOf sub.userID
  if downgradeGroup = "" ∧ upgradeGroup = "" then none
  else if s.sub.subs.rows.any (fun other => raising sub.userID now other && other.id ≠ sub.id) then none
  else if downgradeGroup = "" ∧ currentGroup ≠ upgradeGroup then none
  else
    let target := if downgradeGroup = "" then trimSpace sub.prevUserGroup else downgradeGroup
    if target = "" ∨ target = currentGroup then none else some target

def downgradeUserGroup (s : MemberDB) (now : ℤ) (sub : UserSubscription) : MemberDB :=
  match downgradeTarget s now sub with
  | none => s
  | some target => s.setGroup sub.userID target

def adminInvalidateUserSubscription (id now : ℤ) : MemberTx Unit := do
  rejectIf (id ≤ 0) .invalidUserSubscriptionID
  transaction do
    let s ← get
    let sub ← require (s.sub.subs.get? id) .recordNotFound
    let sub := { sub with status := .cancelled, endTime := now }
    modify (·.putSub sub)
    modify fun s => downgradeUserGroup s now sub

def adminDeleteUserSubscription (id now : ℤ) : MemberTx Unit := do
  rejectIf (id ≤ 0) .invalidUserSubscriptionID
  transaction do
    let s ← get
    let sub ← require (s.sub.subs.get? id) .recordNotFound
    modify fun s => downgradeUserGroup s now sub
    modify fun s => { s with sub := { s.sub with subs := s.sub.subs.deleteWhere fun r => r.id = id } }

def due (userID now : ℤ) (sub : UserSubscription) : Bool :=
  sub.userID = userID && sub.status = .active && 0 < sub.endTime && sub.endTime ≤ now

/-- The subscription to have expired last, of those that say something about the group. -/
def lastExpired (s : MemberDB) (userID : ℤ) : Option UserSubscription :=
  (orderBy (·.endTime) (orderBy (·.id) (s.sub.subs.rows.filter fun sub =>
    sub.userID = userID && sub.status = .expired && (sub.downgradeGroup ≠ "" || sub.upgradeGroup ≠ "")))).getLast?

/-- The group to put a user in whose subscriptions have just expired. -/
def expiryTarget (s : MemberDB) (userID now : ℤ) : Option String :=
  if s.sub.subs.rows.any (raising userID now) then none
  else match lastExpired s userID with
    | none => none
    | some sub =>
      let currentGroup := s.groupOf userID
      let downgradeGroup := trimSpace sub.downgradeGroup
      let upgradeGroup := trimSpace sub.upgradeGroup
      let prevGroup := trimSpace sub.prevUserGroup
      if downgradeGroup ≠ "" then if downgradeGroup = currentGroup then none else some downgradeGroup
      else if upgradeGroup = "" ∨ prevGroup = "" ∨ currentGroup ≠ upgradeGroup ∨ prevGroup = currentGroup then none
      else some prevGroup

def expireSubs (s : MemberDB) (userID now : ℤ) : MemberDB :=
  { s with sub := { s.sub with
      subs := s.sub.subs.updateWhere (due userID now) (fun sub => { sub with status := .expired }) fun _ => rfl } }

/-- `ExpireDueSubscriptions`, for one of the users it has found. -/
def expireUserSubscriptions (userID now : ℤ) : MemberTx Unit :=
  transaction do
    modify fun s => expireSubs s userID now
    modify fun s =>
      match expiryTarget s userID now with
      | none => s
      | some target => s.setGroup userID target

/-! ## Resets -/

/-- `ResetDueSubscriptions`, for one of the rows it has found. -/
def resetDueSubscription (cal : Calendar) (id now : ℤ) : SubTx Unit := do
  let s ← get
  let row ← require (s.subs.get? id) .recordNotFound
  let plan ← getSubscriptionPlanById row.planID
  transaction do
    let s ← get
    let locked ← require (s.subs.get? id) .recordNotFound
    if 0 < locked.nextResetTime ∧ locked.nextResetTime ≤ now then do
      let _ ← maybeResetUserSubscription cal plan now locked
      pure ()
    else pure ()

/-- `resetUserSubscriptionTx`. -/
def resetUserSubscription (cal : Calendar) (plan : SubscriptionPlan) (now : ℤ) (advanceResetTime : Bool)
    (sub : UserSubscription) : UserSubscription :=
  if advanceResetTime then
    let nextReset := calcNextResetTime cal plan now sub.endTime
    { sub with amountUsed := 0, nextResetTime := nextReset, lastResetTime := if 0 < nextReset then now else 0 }
  else { sub with amountUsed := 0 }

/-- `AdminResetUserSubscriptionsByPlan`; of every user for `AdminResetPlanSubscriptions`, which minds no missing row. -/
def adminResetSubscriptionsByPlan (cal : Calendar) (now : ℤ) (userID : Option ℤ) (planID : ℤ)
    (advanceResetTime : Bool) : SubTx Unit := do
  rejectIf (planID ≤ 0) .invalidPlanID
  rejectIf (userID.any (· ≤ 0) = true) .invalidUserID
  transaction do
    let plan ← getSubscriptionPlanById planID
    let s ← get
    let subs := s.subs.rows.filter fun sub =>
      (userID.all (· = sub.userID)) && sub.planID = plan.id && sub.status = .active && now < sub.endTime
    rejectIf (userID.isSome = true ∧ subs = []) .noActiveSubscription
    forEach (fun _ sub => modify (·.putSub (resetUserSubscription cal plan now advanceResetTime sub))) ()
      (orderBy (·.userID) (orderBy (·.endTime) (orderBy (·.id) subs)))

end NovaMaas.Billing
