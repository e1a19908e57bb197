/-
  Subscriptions as a source of funding (model/subscription.go): what a request pre-consumes from them, adjusts and
  gets back.

  A pre-consumption takes the whole amount from ONE active subscription, the first in order of expiry that can bear
  it; on the way every candidate whose period has passed is reset.  It leaves a record under the id of its request,
  which makes it and its refund idempotent.

  The calendar (`time.Date`, `AddDate`, `Weekday` in the server's location) is a parameter.  The cache of the plans
  holds what the table holds.
-/
import NovaMaas.Billing.Account
import NovaMaas.Lib.Int64

namespace NovaMaas.Billing

open Txn

/-! ## Rows -/

inductive ResetPeriod where
  | never
  | daily
  | weekly
  | monthly
  | custom
  deriving DecidableEq

/-- What is written in the column; the plan's form does not check it. -/
inductive DurationUnit where
  | year
  | month
  | day
  | hour
  | custom
  | invalid
  deriving DecidableEq

structure SubscriptionPlan where
  id                      : ℤ
  durationUnit            : DurationUnit := .month
  durationValue           : ℤ := 1
  customSeconds           : ℤ := 0
  allowWalletOverflow     : Bool := true
  maxPurchasePerUser      : ℤ := 0
  upgradeGroup            : String := ""
  downgradeGroup          : String := ""
  totalAmount             : Int64 := 0
  quotaResetPeriod        : ResetPeriod := .never
  quotaResetCustomSeconds : ℤ := 0

inductive SubscriptionStatus where
  | active
  | expired
  | cancelled
  deriving DecidableEq

structure UserSubscription where
  id                  : ℤ
  userID              : ℤ
  planID              : ℤ
  amountTotal         : ℤ := 0
  amountUsed          : ℤ := 0
  startTime           : ℤ := 0
  endTime             : ℤ
  status              : SubscriptionStatus := .active
  lastResetTime       : ℤ := 0
  nextResetTime       : ℤ := 0
  upgradeGroup        : String := ""
  prevUserGroup       : String := ""
  downgradeGroup      : String := ""
  allowWalletOverflow : Bool := false
  deriving DecidableEq

inductive PreConsumeStatus where
  | consumed
  | refunded
  deriving DecidableEq

/-- Unique by the id of the request. -/
structure SubscriptionPreConsumeRecord where
  requestID          : String
  userID             : ℤ
  userSubscriptionID : ℤ
  preConsumed        : ℤ
  status             : PreConsumeStatus

structure SubscriptionDB where
  plans   : Table SubscriptionPlan.id
  subs    : Table UserSubscription.id
  records : Table SubscriptionPreConsumeRecord.requestID

inductive SubscriptionError where
  | invalidUserID
  | requestIDEmpty
  | amountNotPositive
  | alreadyRefunded
  | noActiveSubscription
  | quotaInsufficient (need : ℤ)
  | invalidPlanID
  | invalidUserSubscriptionID
  | usedExceedsTotal (used total : ℤ)
  | recordNotFound

abbrev SubTx (α : Type) : Type := Txn SubscriptionDB SubscriptionError α

namespace SubscriptionDB

def putSub (s : SubscriptionDB) (r : UserSubscription) : SubscriptionDB := { s with subs := s.subs.put r }

def putRecord (s : SubscriptionDB) (r : SubscriptionPreConsumeRecord) : SubscriptionDB :=
  { s with records := s.records.put r }

end SubscriptionDB

/-! ## Periods -/

/-- What `time` says: the next midnight, the next Monday and the next first of a month after a moment, and the moment so
many months later.  `calendarOf` is the calendar of a location. -/
structure Calendar where
  nextDay   : ℤ → ℤ
  nextWeek  : ℤ → ℤ
  nextMonth : ℤ → ℤ
  addMonths : ℤ → ℤ → ℤ

/-- `time.Duration(seconds) * time.Second` as whole seconds.  The product is one of 64 bits, in nanoseconds. -/
def durationSeconds (seconds : ℤ) : ℤ := int64 (seconds * 10 ^ 9) / 10 ^ 9

/-- When the period that holds `base` ends; 0 if it has no end before the subscription's. -/
def calcNextResetTime (cal : Calendar) (plan : SubscriptionPlan) (base endUnix : ℤ) : ℤ :=
  let bounded (next : ℤ) : ℤ := if 0 < endUnix ∧ endUnix < next then 0 else next
  match plan.quotaResetPeriod with
  | .never => 0
  | .daily => bounded (cal.nextDay base)
  | .weekly => bounded (cal.nextWeek base)
  | .monthly => bounded (cal.nextMonth base)
  | .custom =>
    if plan.quotaResetCustomSeconds ≤ 0 then 0
    else bounded (base + durationSeconds plan.quotaResetCustomSeconds)

/-- The loop that walks to the current period. -/
def walkPeriods (cal : Calendar) (plan : SubscriptionPlan) (endUnix now : ℤ) : ℕ → ℤ → ℤ → ℤ × ℤ
  | 0, base, next => (base, next)
  | fuel + 1, base, next =>
    if 0 < next ∧ next ≤ now then walkPeriods cal plan endUnix now fuel next (calcNextResetTime cal plan next endUnix)
    else (base, next)

/-- A subscription after the reset that is due.  `none` if there is nothing to save.  There is a turn for every second
since the base and since 1970; `dueReset_eq` compares with the loop. -/
def dueReset (cal : Calendar) (plan : SubscriptionPlan) (now : ℤ) (sub : UserSubscription) : Option UserSubscription :=
  if 0 < sub.nextResetTime ∧ now < sub.nextResetTime then none
  else if plan.quotaResetPeriod = .never then none
  else
    let base := if sub.lastResetTime ≤ 0 then sub.startTime else sub.lastResetTime
    let next := calcNextResetTime cal plan base sub.endTime
    if 0 < next ∧ next ≤ now then
      let walked := walkPeriods cal plan sub.endTime now ((now - base).toNat + now.toNat) base next
      some { sub with amountUsed := 0, lastResetTime := walked.1, nextResetTime := walked.2 }
    else if sub.nextResetTime = 0 ∧ 0 < next then
      some { sub with nextResetTime := next, lastResetTime := base }
    else none

/-- `maybeResetUserSubscriptionWithPlanTx`: the subscription as it is now. -/
def maybeResetUserSubscription (cal : Calendar) (plan : SubscriptionPlan) (now : ℤ) (sub : UserSubscription) :
    SubTx UserSubscription :=
  match dueReset cal plan now sub with
  | none => pure sub
  | some sub' => do
    modify (·.putSub sub')
    pure sub'

/-! ## Calls -/

/-- `strings.TrimSpace(requestId) == ""`. -/
def blank (requestID : String) : Bool := trimSpace requestID = ""

def isActive (userID now : ℤ) (sub : UserSubscription) : Bool :=
  sub.userID = userID && sub.status = .active && now < sub.endTime

/-- The active subscriptions of a user, the first to expire first. -/
def activeSubscriptions (s : SubscriptionDB) (userID now : ℤ) : List UserSubscription :=
  orderBy (·.endTime) (orderBy (·.id) (s.subs.rows.filter (isActive userID now)))

def getSubscriptionPlanById (id : ℤ) : SubTx SubscriptionPlan := do
  rejectIf (id ≤ 0) .invalidPlanID
  let s ← get
  require (s.plans.get? id) .recordNotFound

structure SubscriptionPreConsumeResult where
  userSubscriptionID : ℤ
  preConsumed        : ℤ

/-- The rest of the candidates, in order. -/
def preConsumeFrom (cal : Calendar) (requestID : String) (userID now amount : ℤ) :
    List UserSubscription → SubTx SubscriptionPreConsumeResult
  | [] => throw (.quotaInsufficient amount)
  | candidate :: rest => do
    let plan ← getSubscriptionPlanById candidate.planID
    let sub ← maybeResetUserSubscription cal plan now candidate
    if 0 < sub.amountTotal ∧ sub.amountTotal - sub.amountUsed < amount then
      preConsumeFrom cal requestID userID now amount rest
    else do
      modify (·.putRecord ⟨requestID, userID, sub.id, amount, .consumed⟩)
      modify (·.putSub { sub with amountUsed := int64 (sub.amountUsed + amount) })
      pure ⟨sub.id, amount⟩

/-- `PreConsumeUserSubscription`.  The unique index on the request cannot be hit inside the transaction: it has just
found no record. -/
def preConsumeUserSubscription (cal : Calendar) (now : ℤ) (requestID : String) (userID amount : ℤ) :
    SubTx SubscriptionPreConsumeResult := do
  rejectIf (userID ≤ 0) .invalidUserID
  rejectIf (blank requestID = true) .requestIDEmpty
  rejectIf (amount ≤ 0) .amountNotPositive
  transaction do
    let s ← get
    match s.records.get? requestID with
    | some existing => do
      rejectIf (existing.status = .refunded) .alreadyRefunded
      let sub ← require (s.subs.get? existing.userSubscriptionID) .recordNotFound
      pure ⟨sub.id, existing.preConsumed⟩
    | none => do
      rejectIf (activeSubscriptions s userID now = []) .noActiveSubscription
      preConsumeFrom cal requestID userID now amount (activeSubscriptions s userID now)

/-- `PostConsumeUserSubscriptionDelta`. -/
def postConsumeUserSubscriptionDelta (id delta : ℤ) : SubTx Unit := do
  rejectIf (id ≤ 0) .invalidUserSubscriptionID
  if delta = 0 then pure ()
  else transaction do
    let s ← get
    let sub ← require (s.subs.get? id) .recordNotFound
    let newUsed := max (int64 (sub.amountUsed + delta)) 0
    rejectIf (0 < sub.amountTotal ∧ sub.amountTotal < newUsed) (.usedExceedsTotal newUsed sub.amountTotal)
    modify (·.putSub { sub with amountUsed := newUsed })

/-- `RefundSubscriptionPreConsume`. -/
def refundSubscriptionPreConsume (requestID : String) : SubTx Unit := do
  rejectIf (blank requestID = true) .requestIDEmpty
  transaction do
    let s ← get
    let record ← require (s.records.get? requestID) .recordNotFound
    if record.status = .refunded then pure ()
    else if record.preConsumed ≤ 0 then modify (·.putRecord { record with status := .refunded })
    else do
      postConsumeUserSubscriptionDelta record.userSubscriptionID (-record.preConsumed)
      modify (·.putRecord { record with status := .refunded })

end NovaMaas.Billing
