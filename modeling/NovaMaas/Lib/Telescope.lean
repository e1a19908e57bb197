/-
  A running state and the differences it leaves behind.

  A trace pairs each element of a list with the state after it.  `stepAt` looks one element up and
  returns the states before and after it, which is how a program computes a difference per row when
  it walks the list again for every row.  Whatever the states are worth (`f`), the differences over
  all rows telescope to the last state minus the first.
-/
import Mathlib

open List

namespace Telescope

variable {α κ σ : Type} [DecidableEq κ]

/-- The states before and after the element of key `k`. -/
def stepAt (key : α → κ) (k : κ) : σ → List (α × σ) → Option (σ × σ)
  | _, [] => none
  | v, (a, v') :: rest => if key a = k then some (v, v') else stepAt key k v' rest

/-- The state after the last element. -/
def lastState : σ → List (α × σ) → σ
  | v, [] => v
  | _, (_, v') :: rest => lastState v' rest

/-- The steps of a trace, in order. -/
def steps : σ → List (α × σ) → List (σ × σ)
  | _, [] => []
  | v, (_, v') :: rest => (v, v') :: steps v' rest

variable (key : α → κ)

/-- Looking every element up gives the steps in order. -/
theorem map_stepAt : ∀ (trace : List (α × σ)) (v : σ),
    (trace.map fun p => key p.1).Nodup →
      (trace.map fun p => stepAt key (key p.1) v trace) = (steps v trace).map some := by
  intro trace
  induction trace with
  | nil =>
    intro v _
    rfl
  | cons x trace ih =>
    intro v hnodup
    rw [map_cons, nodup_cons] at hnodup
    -- behind the head every lookup skips it
    have hskip : (trace.map fun p => stepAt key (key p.1) v (x :: trace)) =
        trace.map fun p => stepAt key (key p.1) x.2 trace := by
      refine map_congr_left fun p hp => ?_
      have hne : ¬ key x.1 = key p.1 := by
        intro heq
        exact hnodup.1 (heq ▸ mem_map_of_mem hp)
      rw [stepAt, if_neg hne]
    rw [map_cons, hskip, ih x.2 hnodup.2, stepAt, if_pos rfl, steps, map_cons]

variable {trace : List (α × σ)}

theorem map_stepAt_of_trace {as : List α}
    (htrace : trace.map Prod.fst = as) (hnodup : (as.map key).Nodup) (v : σ) :
    (as.map fun a => stepAt key (key a) v trace) = (steps v trace).map some := by
  subst htrace
  rw [map_map] at hnodup
  rw [map_map, ← map_stepAt key trace v hnodup]
  rfl

/-- What holds of every element and its step holds along the steps. -/
theorem forall₂_steps {as : List α}
    (htrace : trace.map Prod.fst = as) (hnodup : (as.map key).Nodup) (v : σ) {R : α → σ × σ → Prop}
    (hR : ∀ a ∈ as, ∀ step, stepAt key (key a) v trace = some step → R a step) :
    List.Forall₂ R as (steps v trace) := by
  have hsteps := map_stepAt_of_trace key htrace hnodup v
  generalize steps v trace = found at hsteps
  clear htrace hnodup
  induction as generalizing found with
  | nil =>
    cases found with
    | nil => exact List.Forall₂.nil
    | cons => cases hsteps
  | cons a _ ih =>
    cases found with
    | nil => cases hsteps
    | cons step found =>
      rw [map_cons, map_cons, cons.injEq] at hsteps
      refine List.Forall₂.cons (hR a mem_cons_self step hsteps.1) ?_
      exact ih (fun b hb => hR b (mem_cons_of_mem a hb)) found hsteps.2

/-- What a step is worth. -/
def worth (f : σ → ℤ) (step : Option (σ × σ)) : ℤ := step.elim 0 fun p => f p.2 - f p.1

theorem sum_steps (f : σ → ℤ) : ∀ (trace : List (α × σ)) (v : σ),
    ((steps v trace).map fun p => f p.2 - f p.1).sum = f (lastState v trace) - f v := by
  intro trace
  induction trace with
  | nil =>
    intro v
    exact (Int.sub_self _).symm
  | cons _ _ ih =>
    intro v
    rw [steps, map_cons, sum_cons, ih, lastState]
    dsimp only
    omega

/-- The differences telescope. -/
theorem sum_worth_of_trace (f : σ → ℤ) {as : List α}
    (htrace : trace.map Prod.fst = as) (hnodup : (as.map key).Nodup) (v : σ) :
    (as.map fun a => worth f (stepAt key (key a) v trace)).sum = f (lastState v trace) - f v := by
  have hsteps := congrArg (map (worth f)) (map_stepAt_of_trace key htrace hnodup v)
  rw [map_map, map_map] at hsteps
  rw [← sum_steps f trace v]
  exact congrArg sum hsteps

end Telescope
