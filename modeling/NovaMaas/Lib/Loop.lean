/-
  Loops that nobody promised to end: `for again s { s = body s }`.

  `run again body fuel s` is the state a loop leaves behind if it needs at most `fuel` turns, and `none` if it is still
  running then.  A loop ends if some fuel suffices.  An invariant of the turns holds where the loop ends; a measure that
  every turn lowers makes it end; a set of states from which every turn leads back into it, with the loop still going,
  keeps it from ending.
-/
import Mathlib.Data.Nat.Notation

namespace Loop

variable {σ : Type*}

def run (again : σ → Bool) (body : σ → σ) : ℕ → σ → Option σ
  | 0, s => if again s then none else some s
  | fuel + 1, s => if again s then run again body fuel (body s) else some s

variable {again : σ → Bool} {body : σ → σ} {s s' : σ}

theorem run_of_done (fuel : ℕ) (hdone : again s = false) : run again body fuel s = some s := by
  cases fuel <;> simp [run, hdone]

theorem run_succ_of_again (fuel : ℕ) (hagain : again s = true) :
    run again body (fuel + 1) s = run again body fuel (body s) := by
  simp [run, hagain]

/-- More fuel changes nothing. -/
theorem run_succ {fuel : ℕ} (h : run again body fuel s = some s') : run again body (fuel + 1) s = some s' := by
  induction fuel generalizing s with
  | zero =>
    cases hagain : again s with
    | true => simp [run, hagain] at h
    | false =>
      rw [run_of_done 0 hagain] at h
      rw [run_of_done _ hagain, h]
  | succ _ ih =>
    cases hagain : again s with
    | true =>
      rw [run_succ_of_again _ hagain] at h
      rw [run_succ_of_again _ hagain]
      exact ih h
    | false =>
      rw [run_of_done _ hagain] at h
      rw [run_of_done _ hagain, h]

theorem run_mono {fuel fuel' : ℕ} (h : run again body fuel s = some s') (hle : fuel ≤ fuel') :
    run again body fuel' s = some s' := by
  induction hle with
  | refl => exact h
  | step _ ih => exact run_succ ih

/-- The rule of invariants: what every turn keeps holds at the end, where the loop no longer wants to go on. -/
theorem run_keeps {I : σ → Prop} (hkeep : ∀ s, I s → again s = true → I (body s)) {fuel : ℕ} (hinv : I s)
    (h : run again body fuel s = some s') : I s' ∧ again s' = false := by
  induction fuel generalizing s with
  | zero =>
    cases hagain : again s with
    | true => simp [run, hagain] at h
    | false =>
      rw [run_of_done 0 hagain] at h
      cases h
      exact ⟨hinv, hagain⟩
  | succ _ ih =>
    cases hagain : again s with
    | true =>
      rw [run_succ_of_again _ hagain] at h
      exact ih (hkeep s hinv hagain) h
    | false =>
      rw [run_of_done _ hagain] at h
      cases h
      exact ⟨hinv, hagain⟩

/-- The rule of termination: an invariant under which every turn lowers a measure. -/
theorem run_of_measure {I : σ → Prop} (measure : σ → ℕ) (hkeep : ∀ s, I s → again s = true → I (body s))
    (hless : ∀ s, I s → again s = true → measure (body s) < measure s) (hinv : I s) :
    ∀ fuel, measure s ≤ fuel → ∃ s', run again body fuel s = some s' := by
  intro fuel
  induction fuel generalizing s with
  | zero =>
    intro hle
    cases hagain : again s with
    | true =>
      have := hless s hinv hagain
      omega
    | false => exact ⟨s, run_of_done 0 hagain⟩
  | succ _ ih =>
    intro hle
    cases hagain : again s with
    | true =>
      have hlt := hless s hinv hagain
      rw [run_succ_of_again _ hagain]
      exact ih (hkeep s hinv hagain) (by omega)
    | false => exact ⟨s, run_of_done _ hagain⟩

/-- The rule of non-termination. -/
theorem run_none {I : σ → Prop} (hkeep : ∀ s, I s → again s = true ∧ I (body s)) (hinv : I s) :
    ∀ fuel, run again body fuel s = none := by
  intro fuel
  induction fuel generalizing s with
  | zero => simp [run, (hkeep s hinv).1]
  | succ _ ih =>
    rw [run_succ_of_again _ (hkeep s hinv).1]
    exact ih (hkeep s hinv).2

end Loop
