/-
  What each of many numbered holders holds.

  A total that many calls add to and take from is awkward to reason about as one number: whoever takes from it
  must know that its own part is in there.  `Shares` keeps the parts apart, one for each number, and the total of
  any measure of the parts moves by exactly what the one holder that changes gains or gives up (`sum_set`).  A
  number that was never written holds the default, which every measure counts as nothing.
-/
import Mathlib

/-- One part for each number; almost all of them are the default. -/
structure Shares (α : Type) where
  parts : List α

namespace Shares

variable {α : Type} [Inhabited α]

def empty : Shares α := ⟨[]⟩

/-- The part of the holder `n`. -/
def part (s : Shares α) (n : ℕ) : α := s.parts.getD n default

/-- Write the part at `n`, past the end after defaults. -/
def write (a : α) : ℕ → List α → List α
  | 0, [] => [a]
  | 0, _ :: l => a :: l
  | n + 1, [] => default :: write a n []
  | n + 1, b :: l => b :: write a n l

def set (s : Shares α) (n : ℕ) (a : α) : Shares α := ⟨write a n s.parts⟩

/-- The total of a measure. -/
def sum (f : α → ℤ) (s : Shares α) : ℤ := (s.parts.map f).sum

theorem part_set_self (s : Shares α) (n : ℕ) (a : α) : (s.set n a).part n = a := by
  show (write a n s.parts).getD n default = a
  generalize s.parts = l
  induction n generalizing l with
  | zero => cases l <;> rfl
  | succ n ih => cases l <;> exact ih _

theorem part_set_ne (s : Shares α) {n m : ℕ} (h : m ≠ n) (a : α) : (s.set n a).part m = s.part m := by
  show (write a n s.parts).getD m default = s.parts.getD m default
  generalize s.parts = l
  induction n generalizing l m with
  | zero =>
    cases m with
    | zero => exact absurd rfl h
    | succ m => cases l <;> rfl
  | succ n ih =>
    have hne : ∀ {m}, m + 1 ≠ n + 1 → m ≠ n := fun hm hmn => hm (by rw [hmn])
    cases l with
    | nil =>
      cases m with
      | zero => rfl
      | succ m =>
        have := ih (hne h) []
        simpa [write] using this
    | cons b l =>
      cases m with
      | zero => rfl
      | succ m =>
        have := ih (hne h) l
        simpa [write] using this

/-- The total moves by what the one holder gains or gives up. -/
theorem sum_set {f : α → ℤ} (hf : f default = 0) (s : Shares α) (n : ℕ) (a : α) :
    (s.set n a).sum f = s.sum f - f (s.part n) + f a := by
  show ((write a n s.parts).map f).sum = (s.parts.map f).sum - f (s.parts.getD n default) + f a
  generalize s.parts = l
  induction n generalizing l with
  | zero =>
    cases l with
    | nil => simp [write, hf]
    | cons b l =>
      show f a + (l.map f).sum = f b + (l.map f).sum - f b + f a
      omega
  | succ n ih =>
    cases l with
    | nil =>
      have := ih []
      show f default + ((write a n []).map f).sum = _
      rw [hf, this]
      simp [hf]
    | cons b l =>
      have := ih l
      show f b + ((write a n l).map f).sum = f b + (l.map f).sum - f (l.getD n default) + f a
      omega

/-- At most the one holder `n` changes, and then holds `a`. -/
structure Changed (s t : Shares α) (n : ℕ) (a : α) : Prop where
  part : ∀ m, t.part m = a ∨ t.part m = s.part m
  sum  : ∀ f : α → ℤ, f default = 0 → t.sum f = s.sum f - f (s.part n) + f a

theorem changed_set (s : Shares α) (n : ℕ) (a : α) : s.Changed (s.set n a) n a := by
  refine ⟨fun m => ?_, fun f hf => sum_set hf s n a⟩
  rcases eq_or_ne m n with rfl | hm
  · exact Or.inl (part_set_self s m a)
  · exact Or.inr (part_set_ne s hm a)

theorem changed_of_eq {s t : Shares α} (h : t = s) (n : ℕ) : s.Changed t n (s.part n) := by
  subst h
  exact ⟨fun _ => Or.inr rfl, fun _ _ => (sub_add_cancel _ _).symm⟩

/-- The first `k` holders hold at most the total, where nobody holds less than nothing. -/
theorem sum_range_le {f : α → ℤ} (hf : f default = 0) {s : Shares α} (h : ∀ n, 0 ≤ f (s.part n)) (k : ℕ) :
    ∑ n ∈ Finset.range k, f (s.part n) ≤ s.sum f := by
  obtain ⟨l⟩ := s
  show ∑ n ∈ Finset.range k, f (l.getD n default) ≤ (l.map f).sum
  replace h : ∀ n, 0 ≤ f (l.getD n default) := h
  induction l generalizing k with
  | nil => simp [hf]
  | cons b l ih =>
    have hl : ∀ n, 0 ≤ f (l.getD n default) := fun n => h (n + 1)
    have hb : 0 ≤ f b := h 0
    show _ ≤ f b + (l.map f).sum
    cases k with
    | zero =>
      have := ih 0 hl
      simp only [Finset.range_zero, Finset.sum_empty] at this ⊢
      omega
    | succ k =>
      rw [Finset.sum_range_succ']
      have htail : ∑ n ∈ Finset.range k, f ((b :: l).getD (n + 1) default) ≤ (l.map f).sum := ih k hl
      have hhead : f ((b :: l).getD 0 default) = f b := rfl
      omega

theorem sum_nonneg {f : α → ℤ} (hf : f default = 0) {s : Shares α} (h : ∀ n, 0 ≤ f (s.part n)) : 0 ≤ s.sum f := by
  have := sum_range_le hf h 0
  simpa using this

theorem sum_eq_zero {f : α → ℤ} {s : Shares α} (h : ∀ n, f (s.part n) = 0) : s.sum f = 0 := by
  obtain ⟨l⟩ := s
  show (l.map f).sum = 0
  replace h : ∀ n, f (l.getD n default) = 0 := h
  induction l with
  | nil => rfl
  | cons b l ih =>
    have hb : f b = 0 := h 0
    have hl := ih fun n => h (n + 1)
    rw [List.map_cons, List.sum_cons]
    omega

end Shares
