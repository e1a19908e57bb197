/-
  Civil months, as intervals of Unix time in a fixed zone, and dates in a location.

  Months are numbered from January of year 0 (`k = 12 * year + (month - 1)`).  `daysBefore k` is the
  closed form of the proleptic Gregorian calendar; `daysBefore_succ` says that it advances by the
  length of the month, and everything else follows from that one step: month starts increase
  strictly, so a month ends where the next one begins and two different months never overlap.

  What the clocks of a location show is told by the zone in use; `Location.date` goes back from there as Go does.
-/
import Mathlib.Data.Int.Basic
import Mathlib.Data.Nat.Find
import Mathlib.Tactic.IntervalCases
import Mathlib.Tactic.Linarith

namespace Civil

/-- Gregorian leap years. -/
def leap (y : ℕ) : Bool := y % 4 = 0 ∧ (y % 100 ≠ 0 ∨ y % 400 = 0)

/-- Days of a common year before the month of index `m` (`0` = January). -/
def daysBeforeMonth (m : ℕ) : ℕ :=
  [0, 31, 59, 90, 120, 151, 181, 212, 243, 273, 304, 334].getD m 0

/-- Days from 0000-01-01 to the first day of month `k`. -/
def daysBefore (k : ℕ) : ℕ :=
  365 * (k / 12) + ((k / 12 + 3) / 4 + (k / 12 + 399) / 400 - (k / 12 + 99) / 100) +
    daysBeforeMonth (k % 12) + (if 2 ≤ k % 12 ∧ leap (k / 12) then 1 else 0)

/-- The number of days of month `k`. -/
def monthLength (k : ℕ) : ℕ :=
  [31, if leap (k / 12) then 29 else 28, 31, 30, 31, 30, 31, 31, 30, 31, 30, 31].getD (k % 12) 31

theorem monthLength_pos (k : ℕ) : 0 < monthLength k := by
  have hm : k % 12 < 12 := Nat.mod_lt _ (by omega)
  unfold monthLength
  generalize k % 12 = m at hm
  generalize leap (k / 12) = l
  interval_cases m <;> cases l <;> decide

theorem leapDays_succ (y : ℕ) :
    (y + 1 + 3) / 4 + (y + 1 + 399) / 400 - (y + 1 + 99) / 100 =
      (y + 3) / 4 + (y + 399) / 400 - (y + 99) / 100 + (if leap y then 1 else 0) := by
  by_cases h4 : y % 4 = 0
  · by_cases h100 : y % 100 = 0
    · by_cases h400 : y % 400 = 0
      · have hl : leap y = true := by simp [leap, h4, h400]
        rw [hl, if_pos rfl]
        omega
      · have hl : leap y = false := by simp [leap, h100, h400]
        rw [hl, if_neg (by decide)]
        omega
    · have hl : leap y = true := by simp [leap, h4, h100]
      rw [hl, if_pos rfl]
      omega
  · have hl : leap y = false := by simp [leap, h4]
    rw [hl, if_neg (by decide)]
    omega

/-- One month further is the month's length further. -/
theorem daysBefore_succ (k : ℕ) : daysBefore (k + 1) = daysBefore k + monthLength k := by
  have hm : k % 12 < 12 := Nat.mod_lt _ (by omega)
  by_cases hdec : k % 12 = 11
  · -- December: the year advances, and its leap day is counted from here on
    have hy : (k + 1) / 12 = k / 12 + 1 := by omega
    have hr : (k + 1) % 12 = 0 := by omega
    have hstep := leapDays_succ (k / 12)
    unfold daysBefore monthLength
    rw [hy, hr, hdec, hstep]
    have hjan : ¬ (2 ≤ 0 ∧ leap (k / 12 + 1) = true) := fun h => absurd h.1 (by omega)
    simp only [daysBeforeMonth, List.getD_cons_zero, List.getD_cons_succ, if_neg hjan]
    by_cases hl : leap (k / 12) = true
    · have hdec' : 2 ≤ 11 ∧ leap (k / 12) = true := ⟨by omega, hl⟩
      rw [if_pos hl, if_pos hdec']
      omega
    · have hdec' : ¬ (2 ≤ 11 ∧ leap (k / 12) = true) := fun h => hl h.2
      rw [if_neg hl, if_neg hdec']
      omega
  · have hy : (k + 1) / 12 = k / 12 := by omega
    have hr : (k + 1) % 12 = k % 12 + 1 := by omega
    unfold daysBefore monthLength
    rw [hy, hr]
    generalize k % 12 = m at hm hdec
    generalize leap (k / 12) = l
    interval_cases m <;> cases l <;>
      simp only [daysBeforeMonth, List.getD_cons_zero, List.getD_cons_succ] <;> simp <;> omega

theorem daysBefore_strictMono {j k : ℕ} (h : j < k) : daysBefore j < daysBefore k := by
  induction k with
  | zero => omega
  | succ k ih =>
    have hstep := daysBefore_succ k
    have hpos := monthLength_pos k
    rcases Nat.lt_or_eq_of_le (Nat.lt_succ_iff.mp h) with hlt | heq
    · have := ih hlt
      omega
    · subst heq
      omega

/-- The Unix time at which month `k` starts in the zone `offset` seconds east of UTC. -/
def monthStart (offset : ℤ) (k : ℕ) : ℤ := ((daysBefore k : ℤ) - 719528) * 86400 - offset

/-! ## Days and months -/

/-- The first day of a month, counted in days from 1970-01-01; the calendar repeats itself after 400 years. -/
def monthDay (k : ℤ) : ℤ := 146097 * (k / 4800) + daysBefore (k % 4800).toNat - 719528

/-- The month of a day. -/
def monthOf (d : ℤ) : ℤ :=
  4800 * ((d + 719528) / 146097) + Nat.findGreatest (fun k => (daysBefore k : ℤ) ≤ (d + 719528) % 146097) 4799

theorem lt_nextMonth (d : ℤ) : d < monthDay (monthOf d + 1) := by
  obtain ⟨g, hg⟩ : ∃ g, Nat.findGreatest (fun k => (daysBefore k : ℤ) ≤ (d + 719528) % 146097) 4799 = g := ⟨_, rfl⟩
  have hle : g ≤ 4799 := hg ▸ Nat.findGreatest_le 4799
  unfold monthDay monthOf
  rw [hg]
  rcases Nat.lt_or_eq_of_le hle with hlt | rfl
  · -- the month is the last to have begun
    have hnext : ¬ (daysBefore (g + 1) : ℤ) ≤ (d + 719528) % 146097 := by
      intro hbegun
      have hmax := Nat.le_findGreatest (P := fun k => (daysBefore k : ℤ) ≤ (d + 719528) % 146097)
        (show g + 1 ≤ 4799 by omega) hbegun
      omega
    have hera : (4800 * ((d + 719528) / 146097) + g + 1) / 4800 = (d + 719528) / 146097 := by omega
    have hmonth : ((4800 * ((d + 719528) / 146097) + g + 1) % 4800).toNat = g + 1 := by omega
    rw [hera, hmonth]
    omega
  · have hera : (4800 * ((d + 719528) / 146097) + (4799 : ℕ) + 1) / 4800 = (d + 719528) / 146097 + 1 := by omega
    rw [hera]
    omega

/-- A month begins in itself. -/
theorem monthOf_monthDay (k : ℤ) : monthOf (monthDay k) = k := by
  obtain ⟨j, hj⟩ : ∃ j, (k % 4800).toNat = j := ⟨_, rfl⟩
  have hshort : daysBefore j < 146097 := daysBefore_strictMono (show j < 4800 by omega)
  unfold monthOf monthDay
  rw [hj, show 146097 * (k / 4800) + (daysBefore j : ℤ) - 719528 + 719528 = 146097 * (k / 4800) + daysBefore j by omega,
    show (146097 * (k / 4800) + (daysBefore j : ℤ)) / 146097 = k / 4800 by omega,
    show (146097 * (k / 4800) + (daysBefore j : ℤ)) % 146097 = daysBefore j by omega]
  have hgreatest : Nat.findGreatest (fun i => (daysBefore i : ℤ) ≤ daysBefore j) 4799 = j := by
    refine Nat.findGreatest_eq_iff.2 ⟨by omega, fun _ => Int.le_refl _, fun _ hlt _ hle => ?_⟩
    have := daysBefore_strictMono hlt
    omega
  rw [hgreatest]
  omega

/-- So many months later on what a clock shows; a day too many for its month is one of the next. -/
def addMonths (shown n : ℤ) : ℤ :=
  let day := shown / 86400
  86400 * (monthDay (monthOf day + n) + (day - monthDay (monthOf day))) + shown % 86400

theorem addMonths_monthDay (k n : ℤ) : addMonths (86400 * monthDay k) n = 86400 * monthDay (k + n) := by
  have hday : 86400 * monthDay k / 86400 = monthDay k := by omega
  unfold addMonths
  simp only [hday, monthOf_monthDay]
  omega

/-! ## Locations -/

/-- A zone: seconds east of UTC, and the interval in which it is in use. -/
structure Zone where
  offset : ℤ
  start  : ℤ
  stop   : ℤ

/-- Which zone is in use at which moment; none is more than `far` seconds east of UTC. -/
structure Location where
  lookup : ℤ → Zone
  far    : ℤ
  near   : ∀ t, (lookup t).offset ≤ far

namespace Location

variable (loc : Location)

/-- What the clocks show. -/
def clock (t : ℤ) : ℤ := t + (loc.lookup t).offset

/-- The day that the clocks show. -/
def day (t : ℤ) : ℤ := loc.clock t / 86400

/-- `time.Date` of what a clock is to show: the zone is guessed as if that were UTC, and looked up again where the guess
leads out of the zone's interval.  A time that the clocks skip comes out before or after the gap. -/
def date (shown : ℤ) : ℤ :=
  let zone := loc.lookup shown
  if zone.offset = 0 then shown
  else
    let utc := shown - zone.offset
    if utc < zone.start ∨ zone.stop ≤ utc then shown - (loc.lookup utc).offset else utc

/-- `time.Date` of the midnight at which a day begins. -/
def midnight (d : ℤ) : ℤ := loc.date (86400 * d)

/-- `AddDate(0, 0, n)`. -/
def addDays (t n : ℤ) : ℤ := loc.date (loc.clock t + 86400 * n)

/-- `AddDate(0, n, 0)`; a year is twelve months. -/
def addMonths (t n : ℤ) : ℤ := loc.date (Civil.addMonths (loc.clock t) n)

end Location

/-- A location `offset` seconds east of UTC all the time. -/
def fixedZone (offset : ℤ) : Location where
  lookup _ := ⟨offset, -2 ^ 63, 2 ^ 63 - 1⟩
  far := offset
  near _ := Int.le_refl _

theorem fixedZone_date (offset shown : ℤ) : (fixedZone offset).date shown = shown - offset := by
  unfold Location.date fixedZone
  by_cases hzero : offset = 0
  · rw [if_pos hzero, hzero, Int.sub_zero]
  · rw [if_neg hzero]
    exact ite_self (shown - offset)

/-- There is a moment at which a clock that is never changed shows it. -/
theorem fixedZone_clock_date (offset shown : ℤ) :
    (fixedZone offset).clock ((fixedZone offset).date shown) = shown := by
  rw [fixedZone_date]
  exact Int.sub_add_cancel shown offset

example : monthStart 0 (12 * 1970) = 0 := by decide

example : monthStart 28800 (12 * 2020 + 1) = 1580486400 := by decide

end Civil
