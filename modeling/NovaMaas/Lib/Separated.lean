/-
  Texts that stand in a longer text one behind the other, with nothing but separators before, between and behind them.

  Which characters are separators is a parameter.  A text made of separators alone cannot be told from what separates
  the others, so it may be passed over (`Reads`).  How the texts are separated is not recorded: two texts that read the
  same list differ in their separators only.

  The characters that are no separators are COUNTED (`marks`): a text has exactly as many of them as the texts it reads,
  which is how it is refuted that something is read.
-/
import Mathlib

open List

namespace NovaMaas.Separated

variable (sep : Char → Bool)

/-- A text of separators. -/
def Blank (s : String) : Prop := s.toList.all sep = true

instance (s : String) : Decidable (Blank sep s) := inferInstanceAs (Decidable (_ = true))

/-- The texts stand in the text, one behind the other, and there is nothing else but separators. -/
def Reads : List String → String → Prop
  | [], s => Blank sep s
  | t :: ts, s => (Blank sep t ∧ Reads ts s) ∨ ∃ gap rest, s = gap ++ (t ++ rest) ∧ Blank sep gap ∧ Reads ts rest

/-- The characters that are no separators. -/
def marks (s : String) : ℕ := s.toList.countP fun c => !sep c

variable {sep}

/-! ## Blank texts -/

theorem blank_empty : Blank sep "" := rfl

theorem Blank.append {s t : String} (hs : Blank sep s) (ht : Blank sep t) : Blank sep (s ++ t) := by
  unfold Blank at hs ht ⊢
  rw [String.toList_append, all_append, hs, ht]
  rfl

theorem marks_append (s t : String) : marks sep (s ++ t) = marks sep s + marks sep t := by
  unfold marks
  rw [String.toList_append, countP_append]

theorem marks_eq_zero {s : String} : marks sep s = 0 ↔ Blank sep s := by
  unfold marks Blank
  rw [countP_eq_zero, all_eq_true]
  simp

/-! ## Reading -/

theorem Reads.blank_append {ts : List String} {gap s : String} (hgap : Blank sep gap) (h : Reads sep ts s) :
    Reads sep ts (gap ++ s) := by
  induction ts with
  | nil => exact hgap.append h
  | cons t ts ih =>
    rcases h with ⟨ht, h⟩ | ⟨gap', rest, rfl, hgap', hrest⟩
    · exact Or.inl ⟨ht, ih h⟩
    · exact Or.inr ⟨gap ++ gap', rest, String.append_assoc.symm, hgap.append hgap', hrest⟩

theorem Reads.append {ts ts' : List String} {s s' : String} (h : Reads sep ts s) (h' : Reads sep ts' s') :
    Reads sep (ts ++ ts') (s ++ s') := by
  induction ts generalizing s with
  | nil => exact Reads.blank_append h h'
  | cons t ts ih =>
    rcases h with ⟨ht, h⟩ | ⟨gap, rest, rfl, hgap, hrest⟩
    · exact Or.inl ⟨ht, ih h⟩
    · exact Or.inr ⟨gap, rest ++ s', by rw [String.append_assoc, String.append_assoc], hgap, ih hrest⟩

/-- A text at the beginning is read. -/
theorem reads_cons (t : String) {ts : List String} {rest : String} (h : Reads sep ts rest) :
    Reads sep (t :: ts) (t ++ rest) :=
  Or.inr ⟨"", rest, String.empty_append.symm, blank_empty, h⟩

/-- A text that is read stands for the others, if those are blank. -/
theorem reads_single {before : List String} {t : String} (h : ∀ b ∈ before, Blank sep b) :
    Reads sep (before ++ [t]) t := by
  induction before with
  | nil => exact Or.inr ⟨"", "", by rw [String.empty_append, String.append_empty], blank_empty, blank_empty⟩
  | cons b before ih =>
    exact Or.inl ⟨h b mem_cons_self, ih fun b hb => h b (mem_cons_of_mem _ hb)⟩

/-- A text has as many marks as the texts it reads. -/
theorem Reads.marks_eq {ts : List String} {s : String} (h : Reads sep ts s) :
    marks sep s = (ts.map (marks sep)).sum := by
  induction ts generalizing s with
  | nil => exact marks_eq_zero.2 h
  | cons t ts ih =>
    rw [map_cons, sum_cons]
    rcases h with ⟨ht, h⟩ | ⟨gap, rest, rfl, hgap, hrest⟩
    · rw [marks_eq_zero.2 ht, ih h, Nat.zero_add]
    · rw [marks_append, marks_append, marks_eq_zero.2 hgap, ih hrest, Nat.zero_add]

end NovaMaas.Separated
