/-
  Texts that arrive in pieces, each piece under a key.

  A sender cuts several texts into pieces and sends the pieces of all of them mixed up; a receiver puts the pieces with
  one key together again.  `gather` is what is put together under a key.  Two such streams say the same, up to the names
  of the keys, when the keys that gathered something can be MATCHED: one to one, and each with its own text.

  Where every piece has a key on either side, that comes down to the keys: two pieces have one key on the left exactly
  if they have one key on the right (`matched_of_agree`), and where the right key decides the left one nothing less will
  do, by counting the keys (`agree_of_matched`).
-/
import Mathlib

open List

namespace NovaMaas.Gather

variable {α β κ : Type} [DecidableEq α] [DecidableEq β] [DecidableEq κ]

/-- The text of some pieces. -/
def joined : List String → String
  | [] => ""
  | s :: l => s ++ joined l

/-- The text that is gathered under a key. -/
def gather (k : κ) : List (κ × String) → String
  | [] => ""
  | (k', s) :: l => if k' = k then s ++ gather k l else gather k l

/-- The length of all pieces together. -/
def size : List (κ × String) → ℕ
  | [] => 0
  | (_, s) :: l => s.length + size l

@[simp] theorem joined_nil : joined [] = "" := rfl

variable (k k' : κ) (s : String) (l m : List (κ × String))

@[simp] theorem joined_cons (l : List String) : joined (s :: l) = s ++ joined l := rfl

theorem joined_append (l m : List String) : joined (l ++ m) = joined l ++ joined m := by
  induction l with
  | nil => simp
  | cons s l ih => simp [ih, String.append_assoc]

/-- Lists some of which are replaced by nothing come to the same only if those were nothing before. -/
theorem flatMap_eq_iff_of_eq_or_nil {α β : Type} {f g : α → List β} {l : List α}
    (h : ∀ a ∈ l, f a = g a ∨ f a = []) : l.flatMap f = l.flatMap g ↔ ∀ a ∈ l, f a = g a := by
  have hle : ∀ l : List α, (∀ a ∈ l, f a = g a ∨ f a = []) → (l.flatMap f).length ≤ (l.flatMap g).length := by
    intro l h
    rw [length_flatMap, length_flatMap]
    refine sum_le_sum fun a ha => ?_
    rcases h a ha with ha | ha
    · rw [ha]
    · rw [ha]
      exact Nat.zero_le _
  induction l with
  | nil => simp
  | cons a l ih =>
    have htail := ih fun a ha => h a (mem_cons_of_mem _ ha)
    rw [forall_mem_cons, flatMap_cons, flatMap_cons]
    refine Iff.trans ?_ (and_congr_right fun _ => htail)
    constructor
    · intro heq
      have ha : f a = g a := by
        rcases h a mem_cons_self with ha | ha
        · exact ha
        · have hlen := congrArg length heq
          have := hle l fun a ha => h a (mem_cons_of_mem _ ha)
          rw [ha, nil_append, length_append] at hlen
          have hnil : (g a).length = 0 := by omega
          rw [ha, length_eq_zero_iff.1 hnil]
      refine ⟨ha, ?_⟩
      rw [ha] at heq
      exact append_cancel_left heq
    · rintro ⟨ha, hl⟩
      rw [ha, hl]

theorem toList_joined (l : List String) : (joined l).toList = l.flatMap String.toList := by
  induction l with
  | nil => rfl
  | cons s l ih => simp [ih]

/-- Texts some of which are replaced by nothing come to the same only if those were nothing before. -/
theorem joined_eq_iff_of_eq_or_empty {α : Type} {f g : α → String} {l : List α}
    (h : ∀ a ∈ l, f a = g a ∨ f a = "") : joined (l.map f) = joined (l.map g) ↔ ∀ a ∈ l, f a = g a := by
  rw [← String.toList_inj, toList_joined, toList_joined, flatMap_map, flatMap_map, flatMap_eq_iff_of_eq_or_nil]
  · simp only [String.toList_inj]
  · intro a ha
    rcases h a ha with h | h
    · exact Or.inl (by rw [h])
    · exact Or.inr (by rw [h]; rfl)

@[simp] theorem gather_nil : gather k [] = "" := rfl

theorem gather_cons :
    gather k ((k', s) :: l) = (if k' = k then s else "") ++ gather k l := by
  show (if k' = k then s ++ gather k l else gather k l) = _
  split <;> simp

theorem gather_append : gather k (l ++ m) = gather k l ++ gather k m := by
  induction l with
  | nil => simp
  | cons a l ih =>
    obtain ⟨k', s⟩ := a
    rw [cons_append, gather_cons, gather_cons, ih, String.append_assoc]

omit [DecidableEq κ] in
theorem size_append : size (l ++ m) = size l + size m := by
  induction l with
  | nil => simp [size]
  | cons a l ih =>
    rw [cons_append, size, size, ih]
    omega

omit [DecidableEq α] [DecidableEq κ] in
/-- The keys do not matter. -/
theorem size_map {ι : Type} (f : ι → κ) (g : ι → α) (text : ι → String) (l : List ι) :
    size (l.map fun i => (f i, text i)) = size (l.map fun i => (g i, text i)) := by
  induction l with
  | nil => rfl
  | cons i l ih =>
    rw [map_cons, map_cons, size, size, ih]

/-! ## Keys that gather something -/

/-- The keys with a piece that is not empty. -/
def live (l : List (κ × String)) : Finset κ := ((l.filter fun a => a.2 ≠ "").map Prod.fst).toFinset

theorem mem_live {l : List (κ × String)} {k : κ} : k ∈ live l ↔ ∃ s, (k, s) ∈ l ∧ s ≠ "" := by
  simp [live]

theorem gather_ne {l : List (κ × String)} {k : κ} : gather k l ≠ "" ↔ k ∈ live l := by
  rw [mem_live]
  induction l with
  | nil => simp
  | cons a l ih =>
    obtain ⟨k', s⟩ := a
    rw [gather_cons]
    by_cases hk : k' = k
    · subst hk
      rw [if_pos rfl, ne_eq, String.append_eq_empty_iff, not_and_or, ← ne_eq, ← ne_eq, ih]
      constructor
      · rintro (hs | ⟨s', hmem, hs⟩)
        · exact ⟨s, mem_cons_self, hs⟩
        · exact ⟨s', mem_cons_of_mem _ hmem, hs⟩
      · rintro ⟨s', hmem, hs⟩
        rcases mem_cons.mp hmem with heq | hmem
        · cases heq
          exact Or.inl hs
        · exact Or.inr ⟨s', hmem, hs⟩
    · rw [if_neg hk, String.empty_append, ih]
      constructor
      · rintro ⟨s', hmem, hs⟩
        exact ⟨s', mem_cons_of_mem _ hmem, hs⟩
      · rintro ⟨s', hmem, hs⟩
        rcases mem_cons.mp hmem with heq | hmem
        · exact absurd (Prod.mk.inj heq).1.symm hk
        · exact ⟨s', hmem, hs⟩

/-- All texts together are as long as all pieces together. -/
theorem sum_gather {S : Finset κ} {l : List (κ × String)} (h : ∀ a ∈ l, a.2 ≠ "" → a.1 ∈ S) :
    ∑ k ∈ S, (gather k l).length = size l := by
  induction l with
  | nil => simp [size]
  | cons a l ih =>
    obtain ⟨k', s⟩ := a
    have hrest := ih fun a ha => h a (mem_cons_of_mem _ ha)
    have hone : ∑ k ∈ S, (if k' = k then s.length else 0) = s.length := by
      by_cases hs : s = ""
      · subst hs
        simp
      · rw [Finset.sum_ite_eq, if_pos (h (k', s) mem_cons_self hs)]
    have hlength : ∀ k, (gather k ((k', s) :: l)).length = (if k' = k then s.length else 0) + (gather k l).length := by
      intro k
      rw [gather_cons, String.length_append]
      split <;> simp
    rw [Finset.sum_congr rfl fun k _ => hlength k, Finset.sum_add_distrib, hone, hrest, size]

theorem sum_live : ∑ k ∈ live l, (gather k l).length = size l :=
  sum_gather fun a ha hs => mem_live.mpr ⟨a.2, ha, hs⟩

/-- The pieces that are not empty. -/
def dense (l : List (κ × String)) : List (κ × String) := l.filter fun a => a.2 ≠ ""

omit [DecidableEq κ] in
theorem dense_cons :
    dense ((k, s) :: l) = (if s ≠ "" then [(k, s)] else []) ++ dense l := by
  by_cases hs : s = "" <;> simp [dense, hs]

omit [DecidableEq κ] in
theorem dense_append : dense (l ++ m) = dense l ++ dense m :=
  filter_append l m

/-- Empty pieces do not matter. -/
theorem gather_dense : gather k (dense l) = gather k l := by
  induction l with
  | nil => rfl
  | cons a l ih =>
    obtain ⟨k', s⟩ := a
    rw [dense_cons, gather_append, ih, gather_cons]
    by_cases hs : s = ""
    · simp [hs]
    · rw [if_pos hs, gather_cons, gather_nil, String.append_empty]

omit [DecidableEq κ] in
theorem size_dense : size (dense l) = size l := by
  induction l with
  | nil => rfl
  | cons a l ih =>
    obtain ⟨k', s⟩ := a
    rw [dense_cons, size_append, ih, size]
    by_cases hs : s = ""
    · simp [hs, size]
    · simp [hs, size]

/-! ## Matching -/

/-- The keys that gather something are matched, each with a key that gathers the same. -/
def Matched (l : List (α × String)) (m : List (β × String)) : Prop :=
  ∃ f : α → β, Set.BijOn f (live l) (live m) ∧ ∀ a ∈ live l, gather (f a) m = gather a l

theorem Matched.card {l : List (α × String)} {m : List (β × String)} (h : Matched l m) :
    (live l).card = (live m).card := by
  obtain ⟨f, hbij, -⟩ := h
  exact hbij.finsetCard_eq

theorem Matched.size {l : List (α × String)} {m : List (β × String)} (h : Matched l m) : size l = size m := by
  obtain ⟨f, hbij, htext⟩ := h
  rw [← sum_live l, ← sum_live m]
  refine Finset.sum_bij (fun a _ => f a) ?_ ?_ ?_ ?_
  · exact fun a ha => hbij.mapsTo ha
  · exact fun a ha b hb hab => hbij.injOn ha hb hab
  · intro b hb
    obtain ⟨a, ha, heq⟩ := hbij.surjOn hb
    exact ⟨a, ha, heq⟩
  · intro a ha
    rw [htext a ha]

theorem live_congr {l l' : List (κ × String)} (h : ∀ k, gather k l = gather k l') : live l = live l' := by
  ext k
  rw [← gather_ne, ← gather_ne, h k]

/-- Only what is gathered matters. -/
theorem Matched.congr {l l' : List (α × String)} {m m' : List (β × String)} (h : ∀ a, gather a l = gather a l')
    (h' : ∀ b, gather b m = gather b m') : Matched l m ↔ Matched l' m' := by
  unfold Matched
  rw [live_congr h, live_congr h']
  simp only [h, h']

/-! ## Pieces with two keys -/

/-- The pieces under their left keys, and under their right ones. -/
def lefts (t : List (α × β × String)) : List (α × String) := t.map fun x => (x.1, x.2.2)

def rights (t : List (α × β × String)) : List (β × String) := t.map fun x => (x.2.1, x.2.2)

variable {t : List (α × β × String)}

omit [DecidableEq β] in
theorem mem_live_lefts {a : α} : a ∈ live (lefts t) ↔ ∃ x ∈ t, x.2.2 ≠ "" ∧ x.1 = a := by
  rw [mem_live, lefts]
  constructor
  · rintro ⟨s, hmem, hs⟩
    obtain ⟨x, hx, heq⟩ := mem_map.mp hmem
    cases heq
    exact ⟨x, hx, hs, rfl⟩
  · rintro ⟨x, hx, hs, rfl⟩
    exact ⟨x.2.2, mem_map.mpr ⟨x, hx, rfl⟩, hs⟩

omit [DecidableEq α] in
theorem mem_live_rights {b : β} : b ∈ live (rights t) ↔ ∃ x ∈ t, x.2.2 ≠ "" ∧ x.2.1 = b := by
  rw [mem_live, rights]
  constructor
  · rintro ⟨s, hmem, hs⟩
    obtain ⟨x, hx, heq⟩ := mem_map.mp hmem
    cases heq
    exact ⟨x, hx, hs, rfl⟩
  · rintro ⟨x, hx, hs, rfl⟩
    exact ⟨x.2.2, mem_map.mpr ⟨x, hx, rfl⟩, hs⟩

/-- The pieces have one key on the left exactly if they have one on the right. -/
def Agree (t : List (α × β × String)) : Prop :=
  ∀ x ∈ t, ∀ y ∈ t, x.2.2 ≠ "" → y.2.2 ≠ "" → (x.1 = y.1 ↔ x.2.1 = y.2.1)

theorem gather_lefts_eq {a : α} {b : β}
    (h : ∀ x ∈ t, x.2.2 ≠ "" → (x.1 = a ↔ x.2.1 = b)) : gather b (rights t) = gather a (lefts t) := by
  induction t with
  | nil => rfl
  | cons x t ih =>
    have hrest := ih fun y hy => h y (mem_cons_of_mem _ hy)
    show gather b ((x.2.1, x.2.2) :: rights t) = gather a ((x.1, x.2.2) :: lefts t)
    rw [gather_cons, gather_cons, hrest]
    by_cases hs : x.2.2 = ""
    · simp [hs]
    · have hiff := h x mem_cons_self hs
      simp only [hiff]

/-- Keys that agree can be matched. -/
theorem matched_of_agree [Inhabited β] (h : Agree t) : Matched (lefts t) (rights t) := by
  classical
  -- each left key goes to the right key of one of its pieces
  let f : α → β := fun a => if ha : ∃ x ∈ t, x.2.2 ≠ "" ∧ x.1 = a then ha.choose.2.1 else default
  have hf : ∀ x ∈ t, x.2.2 ≠ "" → f x.1 = x.2.1 := by
    intro x hx hs
    have ha : ∃ y ∈ t, y.2.2 ≠ "" ∧ y.1 = x.1 := ⟨x, hx, hs, rfl⟩
    have hspec := ha.choose_spec
    have hval : f x.1 = ha.choose.2.1 := dif_pos ha
    rw [hval]
    exact (h _ hspec.1 x hx hspec.2.1 hs).mp hspec.2.2
  refine ⟨f, ⟨?_, ?_, ?_⟩, ?_⟩
  · intro a ha
    obtain ⟨x, hx, hs, rfl⟩ := mem_live_lefts.mp ha
    exact mem_live_rights.mpr ⟨x, hx, hs, (hf x hx hs).symm⟩
  · intro a ha b hb hab
    obtain ⟨x, hx, hs, rfl⟩ := mem_live_lefts.mp ha
    obtain ⟨y, hy, hs', rfl⟩ := mem_live_lefts.mp hb
    rw [hf x hx hs, hf y hy hs'] at hab
    exact (h x hx y hy hs hs').mpr hab
  · intro b hb
    obtain ⟨x, hx, hs, rfl⟩ := mem_live_rights.mp hb
    exact ⟨x.1, mem_live_lefts.mpr ⟨x, hx, hs, rfl⟩, hf x hx hs⟩
  · intro a ha
    obtain ⟨x, hx, hs, rfl⟩ := mem_live_lefts.mp ha
    rw [hf x hx hs]
    exact gather_lefts_eq fun y hy hs' => h y hy x hx hs' hs

/-- Where the right key decides the left one, keys that are matched agree: there are as many of either. -/
theorem agree_of_matched [Inhabited α] (h : Matched (lefts t) (rights t))
    (hdecides : ∀ x ∈ t, ∀ y ∈ t, x.2.2 ≠ "" → y.2.2 ≠ "" → x.2.1 = y.2.1 → x.1 = y.1) : Agree t := by
  classical
  let g : β → α := fun b => if hb : ∃ x ∈ t, x.2.2 ≠ "" ∧ x.2.1 = b then hb.choose.1 else default
  have hg : ∀ x ∈ t, x.2.2 ≠ "" → g x.2.1 = x.1 := by
    intro x hx hs
    have hb : ∃ y ∈ t, y.2.2 ≠ "" ∧ y.2.1 = x.2.1 := ⟨x, hx, hs, rfl⟩
    have hspec := hb.choose_spec
    have hval : g x.2.1 = hb.choose.1 := dif_pos hb
    rw [hval]
    exact hdecides _ hspec.1 x hx hspec.2.1 hs hspec.2.2
  have himage : (live (rights t)).image g = live (lefts t) := by
    ext a
    rw [Finset.mem_image]
    constructor
    · rintro ⟨b, hb, rfl⟩
      obtain ⟨x, hx, hs, rfl⟩ := mem_live_rights.mp hb
      exact mem_live_lefts.mpr ⟨x, hx, hs, (hg x hx hs).symm⟩
    · intro ha
      obtain ⟨x, hx, hs, rfl⟩ := mem_live_lefts.mp ha
      exact ⟨x.2.1, mem_live_rights.mpr ⟨x, hx, hs, rfl⟩, hg x hx hs⟩
  have hinj : Set.InjOn g (live (rights t)) := by
    refine Finset.injOn_of_card_image_eq ?_
    rw [himage, h.card]
  intro x hx y hy hs hs'
  constructor
  · intro heq
    refine hinj (mem_live_rights.mpr ⟨x, hx, hs, rfl⟩) (mem_live_rights.mpr ⟨y, hy, hs', rfl⟩) ?_
    rw [hg x hx hs, hg y hy hs', heq]
  · exact hdecides x hx y hy hs hs'

end NovaMaas.Gather
