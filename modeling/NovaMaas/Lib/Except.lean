/-
  Reading a successful computation back.

  A checked computation in `Except` succeeds only if each of its steps did.  These lemmas take the
  success apart: a bind into its two halves, a map over a list into one success per element.
-/
import Mathlib.Data.List.Forall2

open List

/-- Every element on the right of `Forall₂` has its partner on the left. -/
theorem List.Forall₂.exists_of_mem {α β : Type} {R : α → β → Prop} {as : List α} {bs : List β}
    (h : List.Forall₂ R as bs) {b : β} (hb : b ∈ bs) : ∃ a ∈ as, R a b := by
  induction h with
  | nil => cases hb
  | cons hab _ ih =>
    rcases mem_cons.mp hb with rfl | hb
    · exact ⟨_, mem_cons_self, hab⟩
    · obtain ⟨a, ha, hR⟩ := ih hb
      exact ⟨a, mem_cons_of_mem _ ha, hR⟩

/-- Every element on the left of `Forall₂` has its partner on the right. -/
theorem List.Forall₂.exists_of_mem_left {α β : Type} {R : α → β → Prop} {as : List α} {bs : List β}
    (h : List.Forall₂ R as bs) {a : α} (ha : a ∈ as) : ∃ b ∈ bs, R a b :=
  h.flip.exists_of_mem ha

namespace Except

variable {ε α β : Type}

variable {f : α → Except ε β}

theorem bind_eq_ok {x : Except ε α} {b : β} :
    (x >>= f) = .ok b ↔ ∃ a, x = .ok a ∧ f a = .ok b := by
  cases x with
  | error e =>
    constructor
    · intro h
      cases h
    · rintro ⟨a, h, -⟩
      cases h
  | ok a =>
    constructor
    · intro h
      exact ⟨a, rfl, h⟩
    · rintro ⟨a', h, hf⟩
      cases h
      exact hf

/-- A successful map succeeds on every element. -/
theorem mapM_ok : ∀ {as : List α} {bs : List β},
    as.mapM f = .ok bs → List.Forall₂ (fun a b => f a = .ok b) as bs := by
  intro as
  induction as with
  | nil =>
    intro bs h
    rw [mapM_nil] at h
    cases h
    exact List.Forall₂.nil
  | cons a as ih =>
    intro bs h
    rw [mapM_cons, bind_eq_ok] at h
    obtain ⟨b, hb, h⟩ := h
    rw [bind_eq_ok] at h
    obtain ⟨bs', hbs', h⟩ := h
    cases h
    exact List.Forall₂.cons hb (ih hbs')

theorem exists_of_mem_mapM {as : List α} {bs : List β} (h : as.mapM f = .ok bs)
    {b : β} (hb : b ∈ bs) : ∃ a ∈ as, f a = .ok b :=
  (mapM_ok h).exists_of_mem hb

/-- What `f` keeps, the map keeps in order. -/
theorem map_of_mapM {γ : Type} {as : List α} {bs : List β}
    (h : as.mapM f = .ok bs) {g : β → γ} {g' : α → γ} (hf : ∀ a b, f a = .ok b → g b = g' a) :
    bs.map g = as.map g' := by
  have hall := mapM_ok h
  clear h
  induction hall with
  | nil => rfl
  | cons hab _ ih => rw [map_cons, map_cons, hf _ _ hab, ih]

/-! ## Loops -/

/-- What every turn of a loop keeps, the loop keeps. -/
theorem foldlM_keeps {σ : Type} {step : σ → β → Except ε σ} {I : σ → Prop}
    (hstep : ∀ st a st', step st a = .ok st' → I st → I st') :
    ∀ {as : List β} {st st' : σ}, as.foldlM step st = .ok st' → I st → I st' := by
  intro as
  induction as with
  | nil =>
    intro st st' h hst
    cases h
    exact hst
  | cons a as ih =>
    intro st st' h hst
    rw [foldlM_cons] at h
    obtain ⟨mid, hmid, h⟩ := Except.bind_eq_ok.1 h
    exact ih h (hstep _ _ _ hmid hst)

end Except
