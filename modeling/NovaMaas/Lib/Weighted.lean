/-
  Drawing from a list by weight: a number is counted down by the weights, and the one that takes it below zero is drawn.

  With numbers from 0 up to the sum of the weights, exactly those with a weight of their own can be drawn
  (`draw_some_iff`).  A weight of 0 is never drawn, unless all are: it is not less likely but impossible.
-/
import Mathlib

open List

namespace NovaMaas.Weighted

variable {α : Type} (weight : α → ℕ)

/-- The element that takes the number below zero. -/
def draw : List α → ℤ → Option α
  | [], _ => none
  | a :: l, number => if number - weight a < 0 then some a else draw l (number - weight a)

/-- The weights together. -/
def total (l : List α) : ℕ := (l.map weight).sum

variable {weight}

theorem total_cons (a : α) (l : List α) : total weight (a :: l) = weight a + total weight l := rfl

theorem mem_of_draw {l : List α} {number : ℤ} {a : α} (h : draw weight l number = some a) : a ∈ l := by
  induction l generalizing number with
  | nil => cases h
  | cons b l ih =>
    unfold draw at h
    split at h
    · exact Option.some.inj h ▸ mem_cons_self
    · exact mem_cons_of_mem _ (ih h)

/-- A number that is not negative takes an element with a weight, and any number below the total takes some. -/
theorem pos_of_draw {l : List α} {number : ℤ} {a : α} (hnumber : 0 ≤ number) (h : draw weight l number = some a) :
    0 < weight a := by
  induction l generalizing number with
  | nil => cases h
  | cons b l ih =>
    unfold draw at h
    split at h
    · obtain rfl := Option.some.inj h
      omega
    · exact ih (by omega) h

theorem draw_ne_none {l : List α} {number : ℤ} (hl : l ≠ []) (h : number < total weight l) :
    draw weight l number ≠ none := by
  induction l generalizing number with
  | nil => exact absurd rfl hl
  | cons b l ih =>
    unfold draw
    rw [total_cons] at h
    split
    · exact Option.some_ne_none b
    · by_cases hnil : l = []
      · rw [hnil] at h
        have hzero : total weight ([] : List α) = 0 := rfl
        omega
      · exact ih hnil (by omega)

/-- Whatever has a weight is drawn by some number. -/
theorem exists_draw {l : List α} {a : α} (ha : a ∈ l) (hpos : 0 < weight a) :
    ∃ number : ℕ, number < total weight l ∧ draw weight l number = some a := by
  induction l with
  | nil => cases ha
  | cons b l ih =>
    rcases mem_cons.1 ha with rfl | hmem
    · refine ⟨0, ?_, ?_⟩
      · rw [total_cons]
        omega
      · exact if_pos (by omega)
    · obtain ⟨number, hlt, hdraw⟩ := ih hmem
      refine ⟨weight b + number, ?_, ?_⟩
      · rw [total_cons]
        omega
      · have hrest : ((weight b + number : ℕ) : ℤ) - weight b = number := by omega
        unfold draw
        rw [hrest, if_neg (by omega), hdraw]

/-- What can be drawn with the numbers from 0 up to the total. -/
theorem draw_some_iff {l : List α} {a : α} :
    (∃ number : ℕ, number < total weight l ∧ draw weight l number = some a) ↔ a ∈ l ∧ 0 < weight a := by
  constructor
  · rintro ⟨number, _, hdraw⟩
    exact ⟨mem_of_draw hdraw, pos_of_draw (Int.natCast_nonneg number) hdraw⟩
  · rintro ⟨ha, hpos⟩
    exact exists_draw ha hpos

/-- A number less by one makes no difference where all weights are at least 2. -/
theorem exists_draw_pred {l : List α} {a : α} (hweight : ∀ b ∈ l, 2 ≤ weight b) (ha : a ∈ l) :
    ∃ number : ℕ, number < total weight l ∧ draw weight l (number - 1) = some a := by
  induction l with
  | nil => cases ha
  | cons b l ih =>
    have hb := hweight b mem_cons_self
    by_cases hab : b = a
    · refine ⟨0, ?_, ?_⟩
      · rw [total_cons]
        omega
      · rw [← hab]
        exact if_pos (by omega)
    · have hmem : a ∈ l := (mem_cons.1 ha).resolve_left fun h => hab h.symm
      have hother := fun c hc => hweight c (mem_cons_of_mem _ hc)
      obtain ⟨number, hlt, hdraw⟩ := ih hother hmem
      by_cases hzero : number = 0
      · -- the first of the rest is drawn by 0 as well as by -1
        subst hzero
        refine ⟨weight b + 1, ?_, ?_⟩
        · rw [total_cons]
          cases l with
          | nil => cases hmem
          | cons c l =>
            have hc := hother c mem_cons_self
            rw [total_cons]
            omega
        · have hrest : ((weight b + 1 : ℕ) : ℤ) - 1 - weight b = 0 := by omega
          unfold draw
          rw [hrest, if_neg (by omega)]
          cases l with
          | nil => cases hmem
          | cons c l =>
            have hc := hother c mem_cons_self
            have hfirst : draw weight (c :: l) ((0 : ℕ) - 1) = some c := if_pos (by omega)
            have hsecond : draw weight (c :: l) 0 = some c := if_pos (by omega)
            rw [hsecond, ← hdraw, hfirst]
      · refine ⟨weight b + number, ?_, ?_⟩
        · rw [total_cons]
          omega
        · have hrest : ((weight b + number : ℕ) : ℤ) - 1 - weight b = number - 1 := by omega
          unfold draw
          rw [hrest, if_neg (by omega), hdraw]

/-- The numbers below the first weight draw the first element, the others draw from the rest. -/
theorem draw_cons_add (b : α) (l : List α) (number : ℕ) :
    draw weight (b :: l) ((weight b + number : ℕ) : ℤ) = draw weight l number := by
  have hrest : ((weight b + number : ℕ) : ℤ) - weight b = number := by omega
  show (if _ < (0 : ℤ) then _ else _) = _
  rw [hrest, if_neg (by omega)]

/-- Of the numbers up to the total, as many draw an element as its weight is, for each time it stands in the list. -/
theorem count_draw [DecidableEq α] (l : List α) (a : α) :
    Nat.count (fun number : ℕ => draw weight l number = some a) (total weight l) = l.count a * weight a := by
  induction l with
  | nil =>
    show Nat.count _ 0 = _
    rw [Nat.count_zero, count_nil, Nat.zero_mul]
  | cons b l ih =>
    rw [total_cons, Nat.count_add]
    have hrest : Nat.count (fun k : ℕ => draw weight (b :: l) ((weight b + k : ℕ) : ℤ) = some a) (total weight l) =
        l.count a * weight a := by
      rw [← ih]
      simp only [draw_cons_add]
    have hfirst : ∀ k < weight b, draw weight (b :: l) (k : ℤ) = some b := by
      intro k hk
      exact if_pos (by omega)
    rw [hrest, count_cons]
    by_cases hab : b = a
    · subst hab
      rw [Nat.count_of_forall hfirst, if_pos (beq_self_eq_true b), Nat.add_mul, Nat.one_mul, Nat.add_comm]
    · have hnone : ∀ k < weight b, ¬ draw weight (b :: l) (k : ℤ) = some a := by
        intro k hk
        rw [hfirst k hk]
        exact fun h => hab (Option.some.inj h)
      rw [Nat.count_of_forall_not hnone, if_neg (by simpa using hab), Nat.zero_add, Nat.add_zero]

end NovaMaas.Weighted
