/-
  Places in a list that are known by what stands there: the first element of a kind, the longest beginning or end of a
  kind.  Two ways to write one list agree up to such a place.
-/
import Mathlib

open List

namespace NovaMaas.Places

variable {α : Type*}

/-- Two lists that agree up to the first element that is not of a kind. -/
theorem eq_of_run {p : α → Bool} {a b u v : List α} (ha : ∀ x ∈ a, p x = true) (hb : ∀ x ∈ b, p x = true)
    (hu : u.head?.any p = false) (hv : v.head?.any p = false) (h : a ++ u = b ++ v) : a = b ∧ u = v := by
  have htake : ∀ {a u : List α}, (∀ x ∈ a, p x = true) → u.head?.any p = false → (a ++ u).takeWhile p = a := by
    intro a u ha hu
    rw [takeWhile_append_of_pos ha]
    cases u with
    | nil => rw [takeWhile_nil, append_nil]
    | cons x u =>
      have hx : p x = false := hu
      rw [takeWhile_cons_of_neg (by rw [hx]; exact Bool.false_ne_true), append_nil]
  have heq : a = b := by rw [← htake ha hu, h, htake hb hv]
  subst heq
  exact ⟨rfl, append_cancel_left h⟩

/-- Two lists that agree up to the first place of an element. -/
theorem eq_of_first [DecidableEq α] {x : α} {a b u v : List α} (ha : x ∉ a) (hb : x ∉ b)
    (h : a ++ x :: u = b ++ x :: v) : a = b ∧ u = v := by
  have hne : ∀ {l : List α}, x ∉ l → ∀ y ∈ l, decide (y ≠ x) = true := by
    intro l hl y hy
    exact decide_eq_true fun heq => hl (heq ▸ hy)
  obtain ⟨heq, htail⟩ := eq_of_run (p := fun y => decide (y ≠ x)) (hne ha) (hne hb) (by simp) (by simp) h
  exact ⟨heq, (cons.inj htail).2⟩

/-- Two lists that agree from the last element that is not of a kind on. -/
theorem eq_of_ending {p : α → Bool} {a b u v : List α} (ha : a.getLast?.any p = false) (hb : b.getLast?.any p = false)
    (hu : ∀ x ∈ u, p x = true) (hv : ∀ x ∈ v, p x = true) (h : a ++ u = b ++ v) : a = b ∧ u = v := by
  have hrev : u.reverse ++ a.reverse = v.reverse ++ b.reverse := by
    rw [← reverse_append, ← reverse_append, h]
  obtain ⟨h1, h2⟩ := eq_of_run (p := p) (fun x hx => hu x (mem_reverse.1 hx)) (fun x hx => hv x (mem_reverse.1 hx))
    (by rw [head?_reverse]; exact ha) (by rw [head?_reverse]; exact hb) hrev
  exact ⟨reverse_injective h2, reverse_injective h1⟩

/-- A part that begins before a place and is not cut by it stands before it. -/
theorem append_part_cases {x : α} {a b c u v : List α} (h : a ++ x :: u = b ++ (c ++ v)) (hx : x ∉ c) (hc : c ≠ []) :
    (∃ a', b = a ++ x :: a' ∧ u = a' ++ (c ++ v)) ∨ ∃ v', a = b ++ (c ++ v') ∧ v = v' ++ x :: u := by
  rcases append_eq_append_iff.1 h with ⟨b', rfl, hb'⟩ | ⟨a', rfl, ha'⟩
  · cases b' with
    | nil =>
      cases c with
      | nil => exact absurd rfl hc
      | cons y c =>
        rw [nil_append, cons_append] at hb'
        obtain ⟨rfl, -⟩ := cons.inj hb'
        exact absurd mem_cons_self hx
    | cons y b' =>
      rw [cons_append] at hb'
      obtain ⟨rfl, rfl⟩ := cons.inj hb'
      exact Or.inl ⟨b', rfl, rfl⟩
  · rcases append_eq_append_iff.1 ha' with ⟨v', rfl, hv'⟩ | ⟨c', rfl, hc'⟩
    · exact Or.inr ⟨v', rfl, hv'⟩
    · cases c' with
      | nil => exact Or.inr ⟨[], by rw [append_nil, append_nil], by rw [nil_append]; exact hc'.symm⟩
      | cons y c' =>
        rw [cons_append] at hc'
        obtain ⟨rfl, -⟩ := cons.inj hc'
        exact absurd (mem_append_right _ mem_cons_self) hx

end NovaMaas.Places
