/-
  A queue that stands for the part of a history that still counts.

  A sliding-window limiter does not keep every event.  It keeps a queue, forgets events from its old end, and looks at
  the oldest one only.  `Kept` is what such a queue has to be: the end of the history, with nothing but dead events
  before it, and no longer than the limit.  Then the look at the oldest event decides what counting the whole history
  would (`Kept.admits_iff`), and pushing, passing over the oldest one and forgetting a dead queue keep it.
-/
import Mathlib.Data.List.Basic

open List

namespace Window

variable {α : Type}

/-- `kept` is the end of `all`, at most `bound` long, and what stands before it is dead. -/
structure Kept (dead : α → Prop) (bound : ℕ) (all kept : List α) : Prop where
  suffix : ∃ before, all = before ++ kept ∧ ∀ a ∈ before, dead a
  short  : kept.length ≤ bound

variable {dead dead' : α → Prop} {bound limit : ℕ} {all kept : List α} {old : α → Bool} {x : α}

theorem Kept.nil (dead : α → Prop) (bound : ℕ) : Kept dead bound [] [] :=
  ⟨⟨[], rfl, fun _ ha => absurd ha not_mem_nil⟩, Nat.zero_le _⟩

theorem Kept.mono (h : Kept dead bound all kept) (hdead : ∀ a ∈ all, dead a → dead' a) : Kept dead' bound all kept := by
  obtain ⟨before, rfl, hbefore⟩ := h.suffix
  exact ⟨⟨before, rfl, fun a ha => hdead a (mem_append_left _ ha) (hbefore a ha)⟩, h.short⟩

theorem Kept.mem (h : Kept dead bound all kept) {a : α} (ha : a ∈ kept) : a ∈ all := by
  obtain ⟨before, rfl, -⟩ := h.suffix
  exact mem_append_right _ ha

/-- A queue of dead events may be forgotten. -/
theorem Kept.forget (h : Kept dead bound all kept) (hdead : ∀ a ∈ kept, dead a) : Kept dead bound all [] := by
  obtain ⟨before, rfl, hbefore⟩ := h.suffix
  refine ⟨⟨before ++ kept, (append_nil _).symm, fun a ha => ?_⟩, Nat.zero_le _⟩
  rcases mem_append.1 ha with ha | ha
  · exact hbefore a ha
  · exact hdead a ha

/-- A queue that is not full takes one more. -/
theorem Kept.push (h : Kept dead bound all kept) (hlength : kept.length < limit) :
    Kept dead limit (all ++ [x]) (kept ++ [x]) := by
  obtain ⟨before, rfl, hbefore⟩ := h.suffix
  refine ⟨⟨before, by rw [append_assoc], hbefore⟩, ?_⟩
  rw [length_append, length_singleton]
  omega

/-- A full one drops its oldest event for it, which must be dead. -/
theorem Kept.shift {a : α} (h : Kept dead bound all (a :: kept)) (hbound : bound ≤ limit) (hdead : dead a) :
    Kept dead limit (all ++ [x]) (kept ++ [x]) := by
  obtain ⟨before, rfl, hbefore⟩ := h.suffix
  have hshort := h.short
  rw [length_cons] at hshort
  refine ⟨⟨before ++ [a], by simp, fun b hb => ?_⟩, ?_⟩
  · rcases mem_append.1 hb with hb | hb
    · exact hbefore b hb
    · rw [mem_singleton.1 hb]
      exact hdead
  · rw [length_append, length_singleton]
    omega

/-- Room in the queue or an old first event: the same as few young events in the whole history. -/
theorem Kept.admits_iff (h : Kept dead bound all kept) (hbound : bound ≤ limit)
    (hdead : ∀ a ∈ all, dead a → old a = true)
    (hfirst : ∀ a rest, kept = a :: rest → old a = false → ∀ b ∈ rest, old b = false) :
    (kept.length < limit ∨ kept.head?.any old = true) ↔ all.countP (fun a => !old a) < limit := by
  obtain ⟨before, rfl, hbefore⟩ := h.suffix
  have hshort := h.short
  -- before the queue nothing counts
  have hnone : before.countP (fun a => !old a) = 0 := by
    rw [countP_eq_zero]
    intro a ha
    rw [hdead a (mem_append_left _ ha) (hbefore a ha)]
    decide
  have hle : kept.countP (fun a => !old a) ≤ kept.length := countP_le_length
  rw [countP_append, hnone, Nat.zero_add]
  cases hkept : kept with
  | nil => simp
  | cons a rest =>
    rw [hkept] at hshort hle
    have hrest : rest.countP (fun a => !old a) ≤ rest.length := countP_le_length
    cases hold : old a with
    | true =>
      rw [countP_cons_of_neg (by simp [hold]), head?_cons, Option.any_some, hold]
      rw [length_cons] at hshort
      exact iff_of_true (Or.inr rfl) (by omega)
    | false =>
      have hall : (a :: rest).countP (fun a => !old a) = (a :: rest).length := by
        rw [countP_eq_length]
        intro b hb
        rcases mem_cons.1 hb with rfl | hb
        · rw [hold]
          rfl
        · rw [hfirst a rest hkept hold b hb]
          rfl
      rw [hall, head?_cons, Option.any_some, hold, or_iff_left (by decide)]

end Window
