/-
  Sums along a loop.

  A loop that adds to a total at every turn ends with the sum of what it added (`foldlM_total`), and adding up the
  elements that are selected is adding up all of them with nothing for the others.
-/
import Mathlib
import NovaMaas.Lib.Except

/-- Selecting and then adding is adding what is selected. -/
theorem List.sum_map_filter {α : Type} (p : α → Bool) (f : α → ℤ) (l : List α) :
    ((l.filter p).map f).sum = (l.map fun a => if p a then f a else 0).sum := by
  induction l with
  | nil => rfl
  | cons a l ih =>
    rw [List.map_cons, List.sum_cons, ← ih, List.filter_cons]
    cases hp : p a with
    | true => simp
    | false => simp

namespace Except

variable {ε α σ : Type}

/-- A loop that adds to a sum at every turn. -/
theorem foldlM_total {step : σ → α → Except ε σ} {t : σ → ℤ} {d : α → ℤ}
    (hstep : ∀ st a st', step st a = .ok st' → t st' = t st + d a) :
    ∀ {as : List α} {st st' : σ}, as.foldlM step st = .ok st' → t st' = t st + (as.map d).sum := by
  intro as
  induction as with
  | nil =>
    intro st st' h
    cases h
    simp
  | cons a as ih =>
    intro st st' h
    rw [List.foldlM_cons] at h
    obtain ⟨mid, hmid, h⟩ := Except.bind_eq_ok.1 h
    rw [ih h, hstep _ _ _ hmid, List.map_cons, List.sum_cons]
    omega

end Except
