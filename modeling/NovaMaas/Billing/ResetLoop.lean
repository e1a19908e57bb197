/-
  The catch-up loop of a subscription's resets (model/subscription.go).

  `maybeResetUserSubscriptionWithPlanTx` walks from the last reset, period by period, until the next one lies ahead or
  past the end of the subscription.  Two things may keep it from getting there.  The length of a custom period is a
  number of seconds that nobody bounds from above: its product with a second is one of 64 bits, so the stride may come
  out as nothing, or backwards.  And where the clocks of a location skip a midnight, `time.Date` may put it on the
  evening before, from where the next midnight is the same again.

  `catchesUp_iff` says for which rows, plans and clocks the call ends with the row up to date, where the periods of the
  calendar end on the day the next one begins (`Begun`).
-/
import NovaMaas.Billing.Subscription
import NovaMaas.Lib.Loop
import Mathlib.Logic.Function.Iterate

open Civil

namespace NovaMaas.Billing

/-! ## The loop as it stands -/

/-- `next > 0 && next <= now`, at a pair of `base` and `next`. -/
def periodOver (now : ℤ) (w : ℤ × ℤ) : Bool := 0 < w.2 && w.2 ≤ now

def nextPeriod (cal : Calendar) (plan : SubscriptionPlan) (endUnix : ℤ) (w : ℤ × ℤ) : ℤ × ℤ :=
  (w.2, calcNextResetTime cal plan w.2 endUnix)

def catchUp (cal : Calendar) (plan : SubscriptionPlan) (endUnix now : ℤ) (fuel : ℕ) (w : ℤ × ℤ) : Option (ℤ × ℤ) :=
  Loop.run (periodOver now) (nextPeriod cal plan endUnix) fuel w

def resetBase (sub : UserSubscription) : ℤ := if sub.lastResetTime ≤ 0 then sub.startTime else sub.lastResetTime

def firstReset (cal : Calendar) (plan : SubscriptionPlan) (sub : UserSubscription) : ℤ :=
  calcNextResetTime cal plan (resetBase sub) sub.endTime

/-- Where the loop starts. -/
def firstPeriod (cal : Calendar) (plan : SubscriptionPlan) (sub : UserSubscription) : ℤ × ℤ :=
  (resetBase sub, firstReset cal plan sub)

/-- `maybeResetUserSubscriptionWithPlanTx`: the row it leaves behind, if its loop needs at most `fuel` turns. -/
def maybeReset (cal : Calendar) (plan : SubscriptionPlan) (now : ℤ) (fuel : ℕ) (sub : UserSubscription) :
    Option UserSubscription :=
  if 0 < sub.nextResetTime ∧ now < sub.nextResetTime then some sub
  else if plan.quotaResetPeriod = .never then some sub
  else (catchUp cal plan sub.endTime now fuel (firstPeriod cal plan sub)).map fun walked =>
    if periodOver now (firstPeriod cal plan sub) = true then
      { sub with amountUsed := 0, lastResetTime := walked.1, nextResetTime := walked.2 }
    else if sub.nextResetTime = 0 ∧ 0 < walked.2 then
      { sub with nextResetTime := walked.2, lastResetTime := walked.1 }
    else sub

/-! ## What is wanted of it -/

/-- The last reset is not in the future, and the next one is, if there is one. -/
structure Current (now : ℤ) (sub : UserSubscription) : Prop where
  last : sub.lastResetTime ≤ now
  next : sub.nextResetTime = 0 ∨ now < sub.nextResetTime

/-- The call ends, the row is current, and a second call at the same time changes nothing. -/
def CatchesUp (cal : Calendar) (plan : SubscriptionPlan) (now : ℤ) (sub : UserSubscription) : Prop :=
  ∃ fuel sub', maybeReset cal plan now fuel sub = some sub' ∧ Current now sub' ∧
    ∃ fuel', maybeReset cal plan now fuel' sub' = some sub'

/-- The period in whole seconds, as the code computes it. -/
def SubscriptionPlan.stride (plan : SubscriptionPlan) : ℤ := durationSeconds plan.quotaResetCustomSeconds

/-- When the call does what is wanted of it.
  - The row is left alone: it is current as it stands.
  - A first reset is entered: the period it starts from has begun.
  - Resets are caught up on: a custom period leads forward, or back onto 1970-01-01 itself. -/
def Settles (cal : Calendar) (plan : SubscriptionPlan) (now : ℤ) (sub : UserSubscription) : Prop :=
  if (0 < sub.nextResetTime ∧ now < sub.nextResetTime) ∨ plan.quotaResetPeriod = .never then Current now sub
  else if periodOver now (firstPeriod cal plan sub) = true then
    plan.quotaResetPeriod = .custom → 0 < plan.stride ∨ plan.stride < 0 ∧ plan.stride ∣ resetBase sub
  else if sub.nextResetTime = 0 ∧ 0 < firstReset cal plan sub then resetBase sub ≤ now
  else Current now sub

/-! ## The calendar of a location -/

/-- `8 - weekday`, Monday being 1 and Sunday 7; day 0 is a Thursday. -/
def daysUntil (d : ℤ) : ℤ :=
  let weekday := (d + 4) % 7
  8 - if weekday = 0 then 7 else weekday

/-- The calendar that `time` keeps in a location. -/
def calendarOf (loc : Location) : Calendar where
  nextDay t     := loc.addDays (loc.midnight (loc.day t)) 1
  nextWeek t    := loc.addDays (loc.midnight (loc.day t)) (daysUntil (loc.day t))
  nextMonth t   := loc.addMonths (loc.midnight (monthDay (monthOf (loc.day t)))) 1
  addMonths t n := loc.addMonths t n

/-- Where the calendar ends the period that day `d` is in. -/
def periodEnd (loc : Location) (period : ResetPeriod) (d : ℤ) : ℤ :=
  match period with
  | .weekly => loc.addDays (loc.midnight d) (daysUntil d)
  | .monthly => loc.addMonths (loc.midnight (monthDay (monthOf d))) 1
  | _ => loc.addDays (loc.midnight d) 1

/-- The first day of the next period. -/
def nextStart (period : ResetPeriod) (d : ℤ) : ℤ :=
  match period with
  | .weekly => d + daysUntil d
  | .monthly => monthDay (monthOf d + 1)
  | _ => d + 1

/-- From the base's day on, up to now and the end of the subscription, every period ends on the day on which the next
one begins: no midnight is asked for that the clocks skip and `time.Date` puts on the day before. -/
def Begun (loc : Location) (plan : SubscriptionPlan) (now : ℤ) (sub : UserSubscription) : Prop :=
  plan.quotaResetPeriod ≠ .custom → periodOver now (firstPeriod (calendarOf loc) plan sub) = true → ∀ k : ℕ,
    let d := (nextStart plan.quotaResetPeriod)^[k] (loc.day (resetBase sub))
    let t := periodEnd loc plan.quotaResetPeriod d
    t ≤ now → sub.endTime ≤ 0 ∨ t ≤ sub.endTime → 0 < t ∧ loc.day t = nextStart plan.quotaResetPeriod d

/-! ## Strides -/

variable {loc : Location} {cal : Calendar} {plan : SubscriptionPlan} {now endUnix base : ℤ} {sub sub' : UserSubscription}
  {w w' : ℤ × ℤ} {fuel : ℕ}

theorem periodOver_iff : periodOver now w = true ↔ 0 < w.2 ∧ w.2 ≤ now := by
  simp [periodOver]

/-- A custom period that has an end before the subscription's ends a stride later. -/
theorem calc_custom (hcustom : plan.quotaResetPeriod = .custom) (hpos : 0 < plan.quotaResetCustomSeconds) :
    calcNextResetTime cal plan base endUnix =
      if 0 < endUnix ∧ endUnix < base + plan.stride then 0 else base + plan.stride := by
  unfold calcNextResetTime
  rw [hcustom]
  simp only [if_neg (Int.not_le.2 hpos), SubscriptionPlan.stride]
  rfl

/-- A period of the calendar. -/
theorem calc_calendar (hnever : plan.quotaResetPeriod ≠ .never) (hcustom : plan.quotaResetPeriod ≠ .custom) :
    calcNextResetTime (calendarOf loc) plan base endUnix =
      if 0 < endUnix ∧ endUnix < periodEnd loc plan.quotaResetPeriod (loc.day base) then 0
      else periodEnd loc plan.quotaResetPeriod (loc.day base) := by
  unfold calcNextResetTime
  cases hperiod : plan.quotaResetPeriod with
  | never => exact absurd hperiod hnever
  | daily => rfl
  | weekly => rfl
  | monthly => rfl
  | custom => exact absurd hperiod hcustom

theorem lt_nextStart (period : ResetPeriod) (d : ℤ) : d < nextStart period d := by
  cases period with
  | weekly =>
    show d < d + daysUntil d
    simp only [daysUntil]
    split <;> omega
  | monthly => exact lt_nextMonth d
  | never => exact Int.lt_add_one_of_le (Int.le_refl d)
  | daily => exact Int.lt_add_one_of_le (Int.le_refl d)
  | custom => exact Int.lt_add_one_of_le (Int.le_refl d)

/-- Where a custom period has an end, its length is positive. -/
theorem custom_pos (hcustom : plan.quotaResetPeriod = .custom)
    (hfirst : 0 < calcNextResetTime cal plan base endUnix) : 0 < plan.quotaResetCustomSeconds := by
  by_contra hneg
  have hzero : calcNextResetTime cal plan base endUnix = 0 := by
    simp [calcNextResetTime, hcustom, Int.not_lt.1 hneg]
  omega

/-! ## Walks forward -/

/-- Inside the walk, from its first turn on. -/
structure Walked (cal : Calendar) (plan : SubscriptionPlan) (endUnix now : ℤ) (w : ℤ × ℤ) : Prop where
  begun : 0 < w.1
  past  : w.1 ≤ now
  next  : w.2 = calcNextResetTime cal plan w.1 endUnix

theorem Walked.nextPeriod (h : periodOver now w = true) :
    Walked cal plan endUnix now (nextPeriod cal plan endUnix w) :=
  ⟨(periodOver_iff.1 h).1, (periodOver_iff.1 h).2, rfl⟩

/-- The walk as a whole, once its first period is over. -/
theorem catchUp_walked (hover : periodOver now w = true) (h : catchUp cal plan endUnix now fuel w = some w') :
    Walked cal plan endUnix now w' ∧ periodOver now w' = false := by
  cases fuel with
  | zero => simp [catchUp, Loop.run, hover] at h
  | succ fuel =>
    unfold catchUp at h
    rw [Loop.run_succ_of_again fuel hover] at h
    exact Loop.run_keeps (fun s _ hs => Walked.nextPeriod hs) (Walked.nextPeriod hover) h

/-- The next reset lies ahead of the base, if there is one. -/
def Ahead (w : ℤ × ℤ) : Prop := w.2 = 0 ∨ w.1 < w.2

/-- A walk by strides that lead forward. -/
theorem catchUp_strides (hcustom : plan.quotaResetPeriod = .custom) (hpos : 0 < plan.quotaResetCustomSeconds)
    (hstride : 0 < plan.stride) (base : ℤ) :
    ∃ fuel w', catchUp cal plan endUnix now fuel (base, calcNextResetTime cal plan base endUnix) = some w' ∧
      Ahead w' := by
  have hkeep (w : ℤ × ℤ) : Ahead (nextPeriod cal plan endUnix w) := by
    show calcNextResetTime cal plan w.2 endUnix = 0 ∨ w.2 < calcNextResetTime cal plan w.2 endUnix
    rw [calc_custom hcustom hpos]
    split <;> omega
  have hless (w : ℤ × ℤ) (hw : Ahead w) (hover : periodOver now w = true) :
      (now - w.2).toNat < (now - w.1).toNat := by
    have hpast := periodOver_iff.1 hover
    rcases hw with hzero | hlater <;> omega
  have hfirst : Ahead (base, calcNextResetTime cal plan base endUnix) := hkeep (base, base)
  obtain ⟨w', hw⟩ := Loop.run_of_measure (fun w : ℤ × ℤ => (now - w.1).toNat) (fun w _ _ => hkeep w) hless hfirst _
    (Nat.le_refl _)
  exact ⟨_, w', hw, (Loop.run_keeps (fun w _ _ => hkeep w) hfirst hw).1⟩

/-- Inside a walk by the calendar: its base is on the first day of a period, or the day of the first base. -/
def OnStart (loc : Location) (plan : SubscriptionPlan) (sub : UserSubscription) (w : ℤ × ℤ) : Prop :=
  w.2 = calcNextResetTime (calendarOf loc) plan w.1 sub.endTime ∧
    ∃ k, loc.day w.1 = (nextStart plan.quotaResetPeriod)^[k] (loc.day (resetBase sub))

/-- A period that has ended has led to the first day of the next. -/
theorem OnStart.next (hnever : plan.quotaResetPeriod ≠ .never) (hcustom : plan.quotaResetPeriod ≠ .custom)
    (hbegun : Begun loc plan now sub) (hover : periodOver now (firstPeriod (calendarOf loc) plan sub) = true)
    (hw : OnStart loc plan sub w) :
    w.2 = 0 ∨ now < w.2 ∨ 0 < w.2 ∧ loc.day w.2 = nextStart plan.quotaResetPeriod (loc.day w.1) := by
  obtain ⟨hnext, k, hday⟩ := hw
  rw [calc_calendar hnever hcustom] at hnext
  by_cases hend : 0 < sub.endTime ∧ sub.endTime < periodEnd loc plan.quotaResetPeriod (loc.day w.1)
  · rw [if_pos hend] at hnext
    exact Or.inl hnext
  rw [if_neg hend] at hnext
  by_cases hlater : now < w.2
  · exact Or.inr (Or.inl hlater)
  have hstart : ∀ d, d = (nextStart plan.quotaResetPeriod)^[k] (loc.day (resetBase sub)) →
      periodEnd loc plan.quotaResetPeriod d ≤ now →
      sub.endTime ≤ 0 ∨ periodEnd loc plan.quotaResetPeriod d ≤ sub.endTime →
      0 < periodEnd loc plan.quotaResetPeriod d ∧
        loc.day (periodEnd loc plan.quotaResetPeriod d) = nextStart plan.quotaResetPeriod d := by
    rintro d rfl
    exact hbegun hcustom hover k
  rw [hnext]
  exact Or.inr (Or.inr (hstart (loc.day w.1) hday (by omega) (by omega)))

theorem OnStart.nextPeriod (hday : loc.day w.2 = nextStart plan.quotaResetPeriod (loc.day w.1))
    (hw : OnStart loc plan sub w) : OnStart loc plan sub (nextPeriod (calendarOf loc) plan sub.endTime w) := by
  obtain ⟨-, k, hk⟩ := hw
  refine ⟨rfl, k + 1, ?_⟩
  rw [Function.iterate_succ_apply', ← hk]
  exact hday

/-- A walk by the calendar: the day moves on, and the clocks are never further ahead than their location allows. -/
theorem catchUp_calendar (hnever : plan.quotaResetPeriod ≠ .never) (hcustom : plan.quotaResetPeriod ≠ .custom)
    (hbegun : Begun loc plan now sub) (hover : periodOver now (firstPeriod (calendarOf loc) plan sub) = true) :
    ∃ fuel w', catchUp (calendarOf loc) plan sub.endTime now fuel (firstPeriod (calendarOf loc) plan sub) = some w' ∧
      OnStart loc plan sub w' := by
  have hled (w : ℤ × ℤ) (hw : OnStart loc plan sub w) (hagain : periodOver now w = true) :
      loc.day w.2 = nextStart plan.quotaResetPeriod (loc.day w.1) := by
    have hpast := periodOver_iff.1 hagain
    rcases hw.next hnever hcustom hbegun hover with hzero | hlater | ⟨-, hday⟩
    · omega
    · omega
    · exact hday
  have hkeep (w : ℤ × ℤ) (hw : OnStart loc plan sub w) (hagain : periodOver now w = true) :=
    hw.nextPeriod (hled w hw hagain)
  have hless (w : ℤ × ℤ) (hw : OnStart loc plan sub w) (hagain : periodOver now w = true) :
      (now + loc.far - 86400 * loc.day w.2).toNat < (now + loc.far - 86400 * loc.day w.1).toNat := by
    have hpast := periodOver_iff.1 hagain
    have hahead : loc.day w.1 < loc.day w.2 := by
      rw [hled w hw hagain]
      exact lt_nextStart _ _
    have hshown : 86400 * loc.day w.2 ≤ w.2 + (loc.lookup w.2).offset := Int.mul_ediv_self_le (by omega)
    have hnear := loc.near w.2
    omega
  have hfirst : OnStart loc plan sub (firstPeriod (calendarOf loc) plan sub) := ⟨rfl, 0, rfl⟩
  obtain ⟨w', hw⟩ := Loop.run_of_measure (fun w : ℤ × ℤ => (now + loc.far - 86400 * loc.day w.1).toNat) hkeep hless
    hfirst _ (Nat.le_refl _)
  exact ⟨_, w', hw, (Loop.run_keeps hkeep hfirst hw).1⟩

/-- A turn that ends on the day on which it began is made again and again. -/
theorem catchUp_stuck (hnever : plan.quotaResetPeriod ≠ .never) (hcustom : plan.quotaResetPeriod ≠ .custom)
    (hover : periodOver now (firstPeriod (calendarOf loc) plan sub) = true)
    (hsame : loc.day (firstReset (calendarOf loc) plan sub) = loc.day (resetBase sub)) (fuel : ℕ) :
    catchUp (calendarOf loc) plan sub.endTime now fuel (firstPeriod (calendarOf loc) plan sub) = none := by
  refine Loop.run_none (I := fun w => w.2 = firstReset (calendarOf loc) plan sub) (fun w hw => ⟨?_, ?_⟩) rfl fuel
  · rw [periodOver_iff, hw]
    exact periodOver_iff.1 hover
  · show calcNextResetTime (calendarOf loc) plan w.2 sub.endTime = firstReset (calendarOf loc) plan sub
    rw [hw, calc_calendar hnever hcustom, hsame]
    exact (calc_calendar hnever hcustom).symm

/-! ## Walks backward -/

/-- A walk of backward strides below the end of the subscription. -/
structure Back (plan : SubscriptionPlan) (endUnix now base : ℤ) (w : ℤ × ℤ) : Prop where
  stride : w.2 = w.1 + plan.stride
  below  : endUnix ≤ 0 ∨ w.2 ≤ endUnix
  past   : w.2 ≤ now
  align  : plan.stride ∣ w.2 - base

theorem Back.step (hcustom : plan.quotaResetPeriod = .custom) (hpos : 0 < plan.quotaResetCustomSeconds)
    (hback : plan.stride ≤ 0) (hw : Back plan endUnix now base w) :
    Back plan endUnix now base (nextPeriod cal plan endUnix w) := by
  have hbelow := hw.below
  have hpast := hw.past
  have hnext : calcNextResetTime cal plan w.2 endUnix = w.2 + plan.stride := by
    rw [calc_custom hcustom hpos, if_neg (by omega)]
  constructor
  · exact hnext
  · show endUnix ≤ 0 ∨ calcNextResetTime cal plan w.2 endUnix ≤ endUnix
    omega
  · show calcNextResetTime cal plan w.2 endUnix ≤ now
    omega
  · show plan.stride ∣ calcNextResetTime cal plan w.2 endUnix - base
    rw [hnext, show w.2 + plan.stride - base = (w.2 - base) + plan.stride by omega]
    exact Int.dvd_add hw.align (Int.dvd_refl _)

/-- Where a walk by strides that do not lead forward starts. -/
theorem Back.first (hcustom : plan.quotaResetPeriod = .custom)
    (hover : periodOver now (firstPeriod cal plan sub) = true) :
    Back plan sub.endTime now (resetBase sub) (firstPeriod cal plan sub) := by
  obtain ⟨hfirst, hle⟩ := periodOver_iff.1 hover
  have hpos : 0 < plan.quotaResetCustomSeconds := custom_pos hcustom hfirst
  have hcalc : calcNextResetTime cal plan (resetBase sub) sub.endTime =
      if 0 < sub.endTime ∧ sub.endTime < resetBase sub + plan.stride then 0 else resetBase sub + plan.stride :=
    calc_custom hcustom hpos
  have hend : ¬ (0 < sub.endTime ∧ sub.endTime < resetBase sub + plan.stride) := by
    intro hend
    rw [if_pos hend] at hcalc
    have : firstReset cal plan sub = 0 := hcalc
    have : 0 < firstReset cal plan sub := hfirst
    omega
  rw [if_neg hend] at hcalc
  have hvalue : firstReset cal plan sub = resetBase sub + plan.stride := hcalc
  constructor
  · exact hvalue
  · show sub.endTime ≤ 0 ∨ firstReset cal plan sub ≤ sub.endTime
    omega
  · exact hle
  · show plan.stride ∣ firstReset cal plan sub - resetBase sub
    rw [hvalue, show resetBase sub + plan.stride - resetBase sub = plan.stride by omega]

theorem catchUp_backward (hcustom : plan.quotaResetPeriod = .custom) (hpos : 0 < plan.quotaResetCustomSeconds)
    (hback : plan.stride < 0) (hw : Back plan endUnix now base w) (hfuel : w.2.toNat ≤ fuel) :
    ∃ w', catchUp cal plan endUnix now fuel w = some w' := by
  refine Loop.run_of_measure (I := Back plan endUnix now base) (fun w => w.2.toNat) ?_ ?_ hw fuel hfuel
  · intro w hw _
    exact hw.step hcustom hpos (Int.le_of_lt hback)
  · intro w hw hover
    have hnext : (nextPeriod cal plan endUnix w).2 = w.2 + plan.stride :=
      (hw.step hcustom hpos (Int.le_of_lt hback)).stride
    have hover := (periodOver_iff.1 hover).1
    show (nextPeriod cal plan endUnix w).2.toNat < w.2.toNat
    rw [hnext]
    show (w.2 + plan.stride).toNat < w.2.toNat
    omega

/-- A stride of no length leads nowhere. -/
theorem catchUp_still (hcustom : plan.quotaResetPeriod = .custom) (hpos : 0 < plan.quotaResetCustomSeconds)
    (hstill : plan.stride = 0) (hw : Back plan endUnix now base w) (hover : periodOver now w = true) :
    ∀ fuel, catchUp cal plan endUnix now fuel w = none := by
  refine Loop.run_none (I := fun v => Back plan endUnix now base v ∧ periodOver now v = true) ?_ ⟨hw, hover⟩
  intro v ⟨hv, hover⟩
  have hnext : Back plan endUnix now base (nextPeriod cal plan endUnix v) := hv.step hcustom hpos (Int.le_of_eq hstill)
  have hsame : (nextPeriod cal plan endUnix v).2 = v.2 := by
    rw [hnext.stride, hstill]
    exact Int.add_zero _
  have hpast := periodOver_iff.1 hover
  exact ⟨hover, hnext, periodOver_iff.2 (by rw [hsame]; exact hpast)⟩

/-! ## The call -/

theorem maybeReset_left (h : (0 < sub.nextResetTime ∧ now < sub.nextResetTime) ∨ plan.quotaResetPeriod = .never)
    (fuel : ℕ) : maybeReset cal plan now fuel sub = some sub := by
  unfold maybeReset
  by_cases hearly : 0 < sub.nextResetTime ∧ now < sub.nextResetTime
  · rw [if_pos hearly]
  · rw [if_neg hearly, if_pos (h.resolve_left hearly)]

theorem maybeReset_walk
    (h : ¬ ((0 < sub.nextResetTime ∧ now < sub.nextResetTime) ∨ plan.quotaResetPeriod = .never)) (fuel : ℕ) :
    maybeReset cal plan now fuel sub =
      (catchUp cal plan sub.endTime now fuel (firstPeriod cal plan sub)).map fun walked =>
        if periodOver now (firstPeriod cal plan sub) = true then
          { sub with amountUsed := 0, lastResetTime := walked.1, nextResetTime := walked.2 }
        else if sub.nextResetTime = 0 ∧ 0 < walked.2 then
          { sub with nextResetTime := walked.2, lastResetTime := walked.1 }
        else sub := by
  unfold maybeReset
  rw [if_neg fun hearly => h (Or.inl hearly), if_neg fun hnever => h (Or.inr hnever)]

/-- No period is over: there is at most a first reset to enter. -/
theorem maybeReset_waiting
    (h : ¬ ((0 < sub.nextResetTime ∧ now < sub.nextResetTime) ∨ plan.quotaResetPeriod = .never))
    (hover : periodOver now (firstPeriod cal plan sub) = false) (fuel : ℕ) :
    maybeReset cal plan now fuel sub = some (if sub.nextResetTime = 0 ∧ 0 < firstReset cal plan sub then
        { sub with nextResetTime := firstReset cal plan sub, lastResetTime := resetBase sub } else sub) := by
  have hwalk : catchUp cal plan sub.endTime now fuel (firstPeriod cal plan sub) = some (firstPeriod cal plan sub) :=
    Loop.run_of_done fuel hover
  rw [maybeReset_walk h, hwalk, hover]
  simp [firstPeriod]

/-- The row after its periods have been walked through. -/
def UserSubscription.walkedTo (sub : UserSubscription) (w : ℤ × ℤ) : UserSubscription :=
  { sub with amountUsed := 0, lastResetTime := w.1, nextResetTime := w.2 }

theorem maybeReset_over (h : ¬ ((0 < sub.nextResetTime ∧ now < sub.nextResetTime) ∨ plan.quotaResetPeriod = .never))
    (hover : periodOver now (firstPeriod cal plan sub) = true) (fuel : ℕ) :
    maybeReset cal plan now fuel sub =
      (catchUp cal plan sub.endTime now fuel (firstPeriod cal plan sub)).map sub.walkedTo := by
  rw [maybeReset_walk h]
  simp only [if_pos hover]
  rfl

/-- A row whose walk is finished is left as it is. -/
theorem maybeReset_walkedTo (hwalked : Walked cal plan sub.endTime now w) (hdone : w.2 = 0 ∨ now < w.2) (fuel : ℕ) :
    maybeReset cal plan now fuel (sub.walkedTo w) = some (sub.walkedTo w) := by
  have hbegun := hwalked.begun
  have hpast := hwalked.past
  by_cases hleft : (0 < (sub.walkedTo w).nextResetTime ∧ now < (sub.walkedTo w).nextResetTime) ∨
      plan.quotaResetPeriod = .never
  · exact maybeReset_left hleft fuel
  · -- the walk has run into the end of the subscription, and would again
    have hend : w.2 = 0 := by
      rcases hdone with hend | hlater
      · exact hend
      · exact absurd (Or.inl ⟨show (0 : ℤ) < w.2 by omega, hlater⟩) hleft
    have hbase : resetBase (sub.walkedTo w) = w.1 := if_neg (Int.not_le.2 hbegun)
    have hfirst : firstReset cal plan (sub.walkedTo w) = 0 := by
      show calcNextResetTime cal plan (resetBase (sub.walkedTo w)) sub.endTime = 0
      rw [hbase, ← hwalked.next, hend]
    have hover : periodOver now (firstPeriod cal plan (sub.walkedTo w)) = false := by
      simp [periodOver, firstPeriod, hfirst]
    rw [maybeReset_waiting hleft hover, hfirst, if_neg (by omega)]

/-- What is wanted of a call that walks is wanted of the end of its walk. -/
theorem catchesUp_over (h : ¬ ((0 < sub.nextResetTime ∧ now < sub.nextResetTime) ∨ plan.quotaResetPeriod = .never))
    (hover : periodOver now (firstPeriod cal plan sub) = true) :
    CatchesUp cal plan now sub ↔
      ∃ fuel w, catchUp cal plan sub.endTime now fuel (firstPeriod cal plan sub) = some w ∧ (w.2 = 0 ∨ now < w.2) := by
  constructor
  · rintro ⟨fuel, sub', hcall, hcurrent, -⟩
    rw [maybeReset_over h hover] at hcall
    obtain ⟨w, hw, rfl⟩ := Option.map_eq_some_iff.1 hcall
    exact ⟨fuel, w, hw, hcurrent.next⟩
  · rintro ⟨fuel, w, hw, hdone⟩
    have hwalked := (catchUp_walked hover hw).1
    refine ⟨fuel, sub.walkedTo w, ?_, ⟨hwalked.past, hdone⟩, 0, maybeReset_walkedTo hwalked hdone 0⟩
    rw [maybeReset_over h hover, hw]
    rfl

/-- A walk that ends nowhere before 1970 has caught up. -/
theorem catchesUp_of_walk (h : ¬ ((0 < sub.nextResetTime ∧ now < sub.nextResetTime) ∨ plan.quotaResetPeriod = .never))
    (hover : periodOver now (firstPeriod cal plan sub) = true)
    (hw : catchUp cal plan sub.endTime now fuel (firstPeriod cal plan sub) = some w) (hnext : w.2 = 0 ∨ 0 < w.2) :
    CatchesUp cal plan now sub := by
  have hstop : ¬ (0 < w.2 ∧ w.2 ≤ now) := fun hagain => by
    simpa [periodOver, hagain] using (catchUp_walked hover hw).2
  exact (catchesUp_over h hover).2 ⟨fuel, w, hw, by omega⟩

theorem catchesUp_strides (hcustom : plan.quotaResetPeriod = .custom) (hstride : 0 < plan.stride)
    (h : ¬ ((0 < sub.nextResetTime ∧ now < sub.nextResetTime) ∨ plan.quotaResetPeriod = .never))
    (hover : periodOver now (firstPeriod cal plan sub) = true) : CatchesUp cal plan now sub := by
  obtain ⟨fuel, w, hw, hnext⟩ :=
    catchUp_strides hcustom (custom_pos hcustom (periodOver_iff.1 hover).1) hstride (resetBase sub)
  have hbegun := (catchUp_walked hover hw).1.begun
  exact catchesUp_of_walk h hover hw (hnext.imp_right fun hlater => Int.lt_trans hbegun hlater)

theorem catchesUp_calendar (hcustom : plan.quotaResetPeriod ≠ .custom) (hbegun : Begun loc plan now sub)
    (h : ¬ ((0 < sub.nextResetTime ∧ now < sub.nextResetTime) ∨ plan.quotaResetPeriod = .never))
    (hover : periodOver now (firstPeriod (calendarOf loc) plan sub) = true) :
    CatchesUp (calendarOf loc) plan now sub := by
  have hnever : plan.quotaResetPeriod ≠ .never := fun hnever => h (Or.inr hnever)
  obtain ⟨fuel, w, hw, hon⟩ := catchUp_calendar hnever hcustom hbegun hover
  have hpast : 0 < now := by
    have := periodOver_iff.1 hover
    omega
  refine catchesUp_of_walk h hover hw ?_
  rcases hon.next hnever hcustom hbegun hover with hzero | hlater | ⟨hpos, -⟩ <;> omega

/-- Strides backward end at or before 1970-01-01, and on that day exactly if they divide the way. -/
theorem catchesUp_backward (hcustom : plan.quotaResetPeriod = .custom) (hback : plan.stride < 0)
    (h : ¬ ((0 < sub.nextResetTime ∧ now < sub.nextResetTime) ∨ plan.quotaResetPeriod = .never))
    (hover : periodOver now (firstPeriod cal plan sub) = true) :
    CatchesUp cal plan now sub ↔ plan.stride ∣ resetBase sub := by
  have hpos : 0 < plan.quotaResetCustomSeconds := custom_pos hcustom (periodOver_iff.1 hover).1
  have hfirst := Back.first hcustom hover
  -- where every walk ends
  have hends {fuel : ℕ} {w : ℤ × ℤ}
      (hw : catchUp cal plan sub.endTime now fuel (firstPeriod cal plan sub) = some w) :
      Back plan sub.endTime now (resetBase sub) w ∧ 0 < w.1 ∧ w.2 ≤ 0 := by
    obtain ⟨hwalked, hdone⟩ := catchUp_walked hover hw
    have hback' := (Loop.run_keeps (fun v hv _ => Back.step hcustom hpos (Int.le_of_lt hback) hv) hfirst hw).1
    have hpast := hback'.past
    have hstop : ¬ (0 < w.2 ∧ w.2 ≤ now) := fun hagain => by simp [periodOver, hagain] at hdone
    exact ⟨hback', hwalked.begun, by omega⟩
  have hnow : 0 < now := by
    have := periodOver_iff.1 hover
    omega
  rw [catchesUp_over h hover]
  constructor
  · rintro ⟨fuel, w, hw, hdone⟩
    obtain ⟨hat, -, hbelow⟩ := hends hw
    have hzero : w.2 = 0 := by omega
    have halign := hat.align
    rw [hzero, Int.zero_sub] at halign
    exact (Int.dvd_neg).1 halign
  · intro hdivides
    obtain ⟨w, hw⟩ := catchUp_backward hcustom hpos hback hfirst (Nat.le_refl _)
    obtain ⟨hat, hbegun, hbelow⟩ := hends hw
    refine ⟨_, w, hw, Or.inl ?_⟩
    have hmultiple : plan.stride ∣ w.2 := by
      have := Int.dvd_add hat.align hdivides
      rwa [Int.sub_add_cancel] at this
    -- the last turn started after 1970-01-01, less than a stride away
    have hshort : -w.2 < -plan.stride := by
      have := hat.stride
      omega
    have hnone : -w.2 = 0 :=
      Int.eq_zero_of_dvd_of_nonneg_of_lt (by omega) hshort (Int.neg_dvd.2 (Int.dvd_neg.2 hmultiple))
    omega

theorem not_catchesUp_still (hcustom : plan.quotaResetPeriod = .custom) (hstill : plan.stride = 0)
    (h : ¬ ((0 < sub.nextResetTime ∧ now < sub.nextResetTime) ∨ plan.quotaResetPeriod = .never))
    (hover : periodOver now (firstPeriod cal plan sub) = true) : ¬ CatchesUp cal plan now sub := by
  have hpos : 0 < plan.quotaResetCustomSeconds := custom_pos hcustom (periodOver_iff.1 hover).1
  rw [catchesUp_over h hover]
  rintro ⟨fuel, w, hw, -⟩
  rw [catchUp_still hcustom hpos hstill (Back.first hcustom hover) hover fuel] at hw
  cases hw

/-- Exactly the rows, plans and clocks for which the call does what is wanted of it. -/
theorem catchesUp_iff (hbegun : Begun loc plan now sub) :
    CatchesUp (calendarOf loc) plan now sub ↔ Settles (calendarOf loc) plan now sub := by
  unfold Settles
  by_cases hleft : (0 < sub.nextResetTime ∧ now < sub.nextResetTime) ∨ plan.quotaResetPeriod = .never
  · rw [if_pos hleft]
    constructor
    · rintro ⟨fuel, sub', hcall, hcurrent, -⟩
      rw [maybeReset_left hleft] at hcall
      cases hcall
      exact hcurrent
    · intro hcurrent
      exact ⟨0, sub, maybeReset_left hleft 0, hcurrent, 0, maybeReset_left hleft 0⟩
  rw [if_neg hleft]
  by_cases hover : periodOver now (firstPeriod (calendarOf loc) plan sub) = true
  · rw [if_pos hover]
    by_cases hcustom : plan.quotaResetPeriod = .custom
    · rcases Int.lt_trichotomy plan.stride 0 with hback | hstill | hahead
      · rw [catchesUp_backward hcustom hback hleft hover]
        constructor
        · exact fun hdivides _ => Or.inr ⟨hback, hdivides⟩
        · intro hstride
          rcases hstride hcustom with hahead | hdivides
          · omega
          · exact hdivides.2
      · constructor
        · exact fun hcatches => absurd hcatches (not_catchesUp_still hcustom hstill hleft hover)
        · intro hstride
          rcases hstride hcustom with hahead | ⟨hback, -⟩ <;> omega
      · exact ⟨fun _ _ => Or.inl hahead, fun _ => catchesUp_strides hcustom hahead hleft hover⟩
    · exact ⟨fun _ hcustom' => absurd hcustom' hcustom, fun _ => catchesUp_calendar hcustom hbegun hleft hover⟩
  · rw [if_neg hover]
    have hover' : periodOver now (firstPeriod (calendarOf loc) plan sub) = false := by simpa using hover
    have hwaits := maybeReset_waiting hleft hover'
    by_cases henter : sub.nextResetTime = 0 ∧ 0 < firstReset (calendarOf loc) plan sub
    · rw [if_pos henter]
      simp only [if_pos henter] at hwaits
      have hlater : now < firstReset (calendarOf loc) plan sub := by
        by_contra hle
        exact hover (periodOver_iff.2 ⟨henter.2, Int.not_lt.1 hle⟩)
      constructor
      · rintro ⟨fuel, sub', hcall, hcurrent, -⟩
        rw [hwaits] at hcall
        cases hcall
        exact hcurrent.last
      · intro hbegun
        exact ⟨0, _, hwaits 0, ⟨hbegun, Or.inr hlater⟩, 0, maybeReset_left (Or.inl ⟨henter.2, hlater⟩) 0⟩
    · rw [if_neg henter]
      simp only [if_neg henter] at hwaits
      constructor
      · rintro ⟨fuel, sub', hcall, hcurrent, -⟩
        rw [hwaits] at hcall
        cases hcall
        exact hcurrent
      · exact fun hcurrent => ⟨0, sub, hwaits 0, hcurrent, 0, hwaits 0⟩

/-! ## The row of the other modules -/

theorem walkPeriods_of_catchUp {base next : ℤ} (h : catchUp cal plan endUnix now fuel (base, next) = some w) :
    walkPeriods cal plan endUnix now fuel base next = w := by
  induction fuel generalizing base next with
  | zero =>
    cases hover : periodOver now (base, next) with
    | true => simp [catchUp, Loop.run, hover] at h
    | false =>
      have hdone : catchUp cal plan endUnix now 0 (base, next) = some (base, next) := Loop.run_of_done 0 hover
      rw [hdone] at h
      cases h
      rfl
  | succ fuel ih =>
    cases hover : periodOver now (base, next) with
    | true =>
      unfold catchUp at h
      rw [Loop.run_succ_of_again fuel hover] at h
      rw [walkPeriods, if_pos (periodOver_iff.1 hover)]
      exact ih h
    | false =>
      have hdone : catchUp cal plan endUnix now (fuel + 1) (base, next) = some (base, next) :=
        Loop.run_of_done (fuel + 1) hover
      rw [hdone] at h
      cases h
      rw [walkPeriods, if_neg fun hagain => by simp [periodOver, hagain] at hover]

theorem dueReset_left (h : (0 < sub.nextResetTime ∧ now < sub.nextResetTime) ∨ plan.quotaResetPeriod = .never) :
    dueReset cal plan now sub = none := by
  unfold dueReset
  by_cases hearly : 0 < sub.nextResetTime ∧ now < sub.nextResetTime
  · rw [if_pos hearly]
  · rw [if_neg hearly, if_pos (h.resolve_left hearly)]

theorem dueReset_walk (h : ¬ ((0 < sub.nextResetTime ∧ now < sub.nextResetTime) ∨ plan.quotaResetPeriod = .never)) :
    dueReset cal plan now sub = if 0 < firstReset cal plan sub ∧ firstReset cal plan sub ≤ now then
        some (sub.walkedTo (walkPeriods cal plan sub.endTime now ((now - resetBase sub).toNat + now.toNat)
          (resetBase sub) (firstReset cal plan sub)))
      else if sub.nextResetTime = 0 ∧ 0 < firstReset cal plan sub then
        some { sub with nextResetTime := firstReset cal plan sub, lastResetTime := resetBase sub }
      else none := by
  unfold dueReset
  rw [if_neg fun hearly => h (Or.inl hearly), if_neg fun hnever => h (Or.inr hnever)]
  rfl

/-- Where the loop ends within the turns that `dueReset` looks at, that is the row it leaves behind. -/
theorem dueReset_eq (hfuel : fuel ≤ (now - resetBase sub).toNat + now.toNat)
    (h : maybeReset cal plan now fuel sub = some sub') :
    (dueReset cal plan now sub).getD sub = sub' := by
  by_cases hleft : (0 < sub.nextResetTime ∧ now < sub.nextResetTime) ∨ plan.quotaResetPeriod = .never
  · rw [maybeReset_left hleft] at h
    cases h
    rw [dueReset_left hleft]
    rfl
  rw [dueReset_walk hleft]
  cases hover : periodOver now (firstPeriod cal plan sub) with
  | true =>
    rw [maybeReset_over hleft hover] at h
    obtain ⟨w, hw, rfl⟩ := Option.map_eq_some_iff.1 h
    have hover' : 0 < firstReset cal plan sub ∧ firstReset cal plan sub ≤ now := periodOver_iff.1 hover
    rw [if_pos hover', walkPeriods_of_catchUp (Loop.run_mono hw hfuel)]
    rfl
  | false =>
    have hover' : ¬ (0 < firstReset cal plan sub ∧ firstReset cal plan sub ≤ now) := by
      intro hagain
      simp [periodOver, firstPeriod, hagain] at hover
    rw [maybeReset_waiting hleft hover] at h
    cases h
    rw [if_neg hover']
    by_cases henter : sub.nextResetTime = 0 ∧ 0 < firstReset cal plan sub
    · rw [if_pos henter, if_pos henter]
      rfl
    · rw [if_neg henter, if_neg henter]
      rfl

/-! ## Clocks that are never changed -/

theorem fixedZone_day (offset d t : ℤ) (h : (fixedZone offset).clock t = 86400 * d) : (fixedZone offset).day t = d := by
  unfold Location.day
  rw [h]
  exact Int.mul_ediv_cancel_left d (by omega)

theorem fixedZone_periodEnd (offset : ℤ) (period : ResetPeriod) (d : ℤ) :
    periodEnd (fixedZone offset) period d = (fixedZone offset).date (86400 * nextStart period d) := by
  have hmidnight (d : ℤ) : (fixedZone offset).clock ((fixedZone offset).midnight d) = 86400 * d :=
    fixedZone_clock_date offset _
  have hdays (n : ℤ) : (fixedZone offset).addDays ((fixedZone offset).midnight d) n =
      (fixedZone offset).date (86400 * (d + n)) := by
    rw [Location.addDays, hmidnight, Int.mul_add]
  cases period with
  | monthly =>
    show (fixedZone offset).addMonths _ 1 = _
    rw [Location.addMonths, hmidnight, addMonths_monthDay]
    rfl
  | never => exact hdays 1
  | daily => exact hdays 1
  | weekly => exact hdays (daysUntil d)
  | custom => exact hdays 1

/-- They show every midnight. -/
theorem fixedZone_begun (offset : ℤ) (plan : SubscriptionPlan) (now : ℤ) (sub : UserSubscription) :
    Begun (fixedZone offset) plan now sub := by
  intro hcustom hover k
  have hnever : plan.quotaResetPeriod ≠ .never := by
    intro hnever
    have hzero : firstReset (calendarOf (fixedZone offset)) plan sub = 0 := by
      simp [firstReset, calcNextResetTime, hnever]
    simp [periodOver, firstPeriod, hzero] at hover
  have hfirst : 0 < periodEnd (fixedZone offset) plan.quotaResetPeriod ((fixedZone offset).day (resetBase sub)) := by
    have hpos := (periodOver_iff.1 hover).1
    have hcalc : firstReset (calendarOf (fixedZone offset)) plan sub = _ := calc_calendar hnever hcustom
    have hvalue : 0 < firstReset (calendarOf (fixedZone offset)) plan sub := hpos
    rw [hcalc] at hvalue
    split at hvalue
    · omega
    · exact hvalue
  -- later periods start on later days
  have hlater : ∀ k : ℕ, nextStart plan.quotaResetPeriod ((fixedZone offset).day (resetBase sub)) ≤
      nextStart plan.quotaResetPeriod
        ((nextStart plan.quotaResetPeriod)^[k] ((fixedZone offset).day (resetBase sub))) := by
    intro k
    induction k with
    | zero => exact Int.le_refl _
    | succ k ih =>
      rw [Function.iterate_succ_apply']
      exact Int.le_trans ih (Int.le_of_lt (lt_nextStart _ _))
  rw [fixedZone_periodEnd, fixedZone_date] at hfirst
  intro d t _ _
  have hle : _ ≤ nextStart plan.quotaResetPeriod d := hlater k
  have ht : t = 86400 * nextStart plan.quotaResetPeriod d - offset := by
    rw [← fixedZone_date, ← fixedZone_periodEnd]
  refine ⟨by omega, fixedZone_day offset _ t ?_⟩
  show t + offset = _
  omega

/-- A daily plan at UTC+8, four midnights behind. -/
theorem catchesUp_daily : CatchesUp (calendarOf (fixedZone 28800)) { id := 1, quotaResetPeriod := .daily } 1700300000
      { id := 1, userID := 7, planID := 1, startTime := 1699900000, endTime := 1702592000,
        lastResetTime := 1699977600, nextResetTime := 1700064000 } := by
  refine (catchesUp_iff (fixedZone_begun 28800 _ _ _)).2 ?_
  rw [Settles, if_neg (by decide), if_pos (by decide)]
  exact fun hcustom => by cases hcustom

/-! ## A period of 2⁵⁵ seconds, and a midnight that is skipped -/

/-- What the form of a plan asks of its resets (`AdminCreateSubscriptionPlan`, `AdminUpdateSubscriptionPlan`). -/
def SubscriptionPlan.resetAdmitted (plan : SubscriptionPlan) : Bool :=
  !(plan.quotaResetPeriod = .custom && plan.quotaResetCustomSeconds ≤ 0)

def endlessPlan : SubscriptionPlan :=
  { id := 1, quotaResetPeriod := .custom, quotaResetCustomSeconds := 2 ^ 55 }

/-- As it was created from the plan at 1700000000, for thirty days. -/
def endlessSub : UserSubscription :=
  { id := 1, userID := 7, planID := 1, startTime := 1700000000, endTime := 1702592000, lastResetTime := 1700000000,
    nextResetTime := 1700000000 }

def dailyPlan : SubscriptionPlan := { id := 2, quotaResetPeriod := .daily }

/-- Santiago de Chile around 8 September 2024: at midnight the clocks are put forward to one. -/
def santiago : Location where
  lookup t := if t < 1725768000 then ⟨-14400, 1712458800, 1725768000⟩ else ⟨-10800, 1725768000, 1743908400⟩
  far := 0
  near t := by split <;> decide

/-- Reset on 7 September at midnight, to be reset the next time at the end of that day. -/
def september : UserSubscription :=
  { id := 2, userID := 7, planID := 2, startTime := 1725206400, endTime := 1727798400, lastResetTime := 1725681600,
    nextResetTime := 1725764400 }

/-- A second is 2⁹ · 5⁹ nanoseconds: the product of 2⁵⁵ of them is zero in 64 bits, and the loop stays where it is.  In
Santiago the end of 7 September comes out as eleven in the evening, the end of that day again. -/
theorem endless : endlessPlan.resetAdmitted = true ∧ FitsInt64 endlessPlan.quotaResetCustomSeconds ∧
    calcNextResetTime (calendarOf (fixedZone 28800)) endlessPlan 1700000000 1702592000 = 1700000000 ∧
    (∀ fuel, maybeReset (calendarOf (fixedZone 28800)) endlessPlan 1700000001 fuel endlessSub = none) ∧
    ¬ CatchesUp (calendarOf (fixedZone 28800)) endlessPlan 1700000001 endlessSub ∧
    dailyPlan.resetAdmitted = true ∧
    calcNextResetTime (calendarOf santiago) dailyPlan 1725681600 1727798400 = 1725764400 ∧
    (∀ fuel, maybeReset (calendarOf santiago) dailyPlan 1725764400 fuel september = none) ∧
    Settles (calendarOf santiago) dailyPlan 1725764400 september ∧
    ¬ CatchesUp (calendarOf santiago) dailyPlan 1725764400 september := by
  have hleft : ¬ ((0 < endlessSub.nextResetTime ∧ 1700000001 < endlessSub.nextResetTime) ∨
      endlessPlan.quotaResetPeriod = .never) := by decide
  have hover : periodOver 1700000001 (firstPeriod (calendarOf (fixedZone 28800)) endlessPlan endlessSub) = true := by
    decide
  have hnone : ∀ fuel, maybeReset (calendarOf (fixedZone 28800)) endlessPlan 1700000001 fuel endlessSub = none := by
    intro fuel
    rw [maybeReset_over hleft hover, catchUp_still rfl (by decide) (by decide) (Back.first rfl hover) hover fuel]
    rfl
  have hdue : ¬ ((0 < september.nextResetTime ∧ 1725764400 < september.nextResetTime) ∨
      dailyPlan.quotaResetPeriod = .never) := by decide
  have hended : periodOver 1725764400 (firstPeriod (calendarOf santiago) dailyPlan september) = true := by decide
  have hstuck : ∀ fuel, maybeReset (calendarOf santiago) dailyPlan 1725764400 fuel september = none := by
    intro fuel
    rw [maybeReset_over hdue hended, catchUp_stuck (by decide) (by decide) hended (by decide) fuel]
    rfl
  refine ⟨by decide, by decide, by decide, hnone, ?_, by decide, by decide, hstuck, ?_, ?_⟩
  · rintro ⟨fuel, sub', hcall, -⟩
    rw [hnone fuel] at hcall
    cases hcall
  · rw [Settles, if_neg hdue, if_pos hended]
    exact fun hcustom => by cases hcustom
  · rintro ⟨fuel, sub', hcall, -⟩
    rw [hstuck fuel] at hcall
    cases hcall

end NovaMaas.Billing
