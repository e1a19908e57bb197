/-
  Signed integers of 64 bits, as the integers they stand for.

  A result that does not fit is wrapped around: `int64 x` is the number between -2⁶³ and 2⁶³ that agrees with `x`
  modulo 2⁶⁴.
-/
import Mathlib

def int64 (x : ℤ) : ℤ := x.bmod (2 ^ 64)

/-- What 64 bits can hold. -/
def FitsInt64 (x : ℤ) : Prop := -2 ^ 63 ≤ x ∧ x < 2 ^ 63

instance (x : ℤ) : Decidable (FitsInt64 x) := inferInstanceAs (Decidable (_ ∧ _))

theorem int64_of_fits {x : ℤ} (h : FitsInt64 x) : int64 x = x := by
  unfold FitsInt64 at h
  exact Int.bmod_eq_of_le (by omega) (by omega)

example : int64 (2 ^ 63) = -2 ^ 63 := by decide
