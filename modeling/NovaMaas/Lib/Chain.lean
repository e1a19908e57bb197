/-
  Following a partial function.

  `follow f n a` is where `n` steps of `f` lead from `a`, if they lead anywhere.  A chain ends at a point that `f` does
  not map, or maps to itself; a chain that comes by a point it returns to, and that is not its own image, runs in a
  circle.  No chain does both, and none ends at two points: past its end it stays there, and in a circle it never stays.
-/
import Mathlib.Data.Nat.Notation
import Mathlib.Tactic.Ring

namespace Chain

variable {α : Type*}

def follow (f : α → Option α) : ℕ → α → Option α
  | 0, a => some a
  | n + 1, a => (f a).bind (follow f n)

/-- The chain from `a` ends at `e`. -/
def EndsAt (f : α → Option α) (a e : α) : Prop := ∃ n, follow f n a = some e ∧ (f e = none ∨ f e = some e)

/-- The chain from `a` enters a cycle of length two or more. -/
def Circles (f : α → Option α) (a : α) : Prop :=
  ∃ n x k, follow f n a = some x ∧ 2 ≤ k ∧ follow f k x = some x ∧ f x ≠ some x

variable {f : α → Option α} {a b e x : α}

theorem follow_add (m n : ℕ) (a : α) : follow f (m + n) a = (follow f m a).bind (follow f n) := by
  induction m generalizing a with
  | zero => rw [Nat.zero_add]; rfl
  | succ m ih =>
    rw [Nat.succ_add]
    show (f a).bind (follow f (m + n)) = ((f a).bind (follow f m)).bind (follow f n)
    cases f a with
    | none => rfl
    | some b => exact ih b

theorem follow_step {n : ℕ} (h : follow f n a = some b) (hb : f b = some x) : follow f (n + 1) a = some x := by
  rw [follow_add, h]
  show (f b).bind (follow f 0) = some x
  rw [hb]
  rfl

/-- Past its end a chain leads to the end, or nowhere. -/
theorem follow_end (he : f e = none ∨ f e = some e) : ∀ n, follow f n e = some x → x = e := by
  intro n
  induction n with
  | zero => exact fun h => (Option.some.inj h).symm
  | succ n ih =>
    intro h
    have h : (f e).bind (follow f n) = some x := h
    rcases he with hnone | hself
    · rw [hnone] at h
      cases h
    · rw [hself] at h
      exact ih h

theorem eq_end {n m : ℕ} (hn : follow f n a = some e) (he : f e = none ∨ f e = some e) (hm : follow f m a = some x)
    (hle : n ≤ m) : x = e := by
  obtain ⟨d, rfl⟩ := Nat.exists_eq_add_of_le hle
  rw [follow_add, hn] at hm
  exact follow_end he d hm

theorem EndsAt.unique (h : EndsAt f a e) (h' : EndsAt f a x) : x = e := by
  obtain ⟨n, hn, he⟩ := h
  obtain ⟨m, hm, hx⟩ := h'
  rcases Nat.le_total n m with hle | hle
  · exact eq_end hn he hm hle
  · exact (eq_end hm hx hn hle).symm

/-- Round the circle as often as one likes. -/
theorem follow_round {k : ℕ} (h : follow f k x = some x) (j : ℕ) : follow f (j * k) x = some x := by
  induction j with
  | zero => rw [Nat.zero_mul]; rfl
  | succ j ih =>
    rw [Nat.succ_mul, follow_add, ih]
    exact h

theorem EndsAt.not_circles (h : EndsAt f a e) : ¬ Circles f a := by
  rintro ⟨m, x, k, hm, hk, hround, hne⟩
  obtain ⟨n, hn, he⟩ := h
  have hlate : follow f (m + n * k) a = some x := by
    rw [follow_add, hm]
    exact follow_round hround n
  have hle : n ≤ m + n * k := (Nat.le_mul_of_pos_right n (by omega)).trans (Nat.le_add_left _ _)
  obtain rfl := eq_end hn he hlate hle
  rcases he with hnone | hself
  · -- nothing leads from the end back to it
    obtain ⟨k, rfl⟩ := Nat.exists_eq_add_of_le' hk
    have hround : (f x).bind (follow f (k + 1)) = some x := hround
    rw [hnone] at hround
    cases hround
  · exact hne hself

end Chain
