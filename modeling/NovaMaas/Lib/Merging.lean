/-
  Merging neighbours of a sorted list that have the same key.

  A list is sorted by a key, and walked through: an element with the key of the last one kept is combined with it, any
  other one is kept behind it.  As equal keys stand together, each key is kept once and holds what all its elements have
  together, up to a cap (`merged`).  So a sum over what is kept is a sum over the keys (`sum_merged`), and it cannot
  become less where no key gets less (`sum_merged_le`), though the kept lists may look quite different.
-/
import Mathlib

open Option hiding map_map

open List

namespace Merging

variable {α κ : Type} [LinearOrder κ] (key : α → κ) (combine : α → α → α)

/-- One element: into the last one kept, or behind it. -/
def mergeInto (kept : List α) (a : α) : List α :=
  match kept.getLast? with
  | none => [a]
  | some last => if key last = key a then kept.dropLast ++ [combine last a] else kept ++ [a]

def mergeNeighbours (l : List α) : List α := l.foldl (mergeInto key combine) []

/-- What the elements of a key have together. -/
def total (count : α → ℤ) (k : κ) (l : List α) : ℤ := (l.map fun a => if key a = k then count a else 0).sum

variable {key combine} {count : α → ℤ} {cap : ℤ} {l kept : List α} {a : α} {k : κ}

theorem total_append (l l' : List α) : total key count k (l ++ l') = total key count k l + total key count k l' := by
  unfold total
  rw [map_append, sum_append]

theorem total_single (a : α) : total key count k [a] = if key a = k then count a else 0 := by
  unfold total
  rw [map_singleton, sum_singleton]

theorem total_absent (h : k ∉ l.map key) : total key count k l = 0 := by
  unfold total
  refine sum_eq_zero fun x hx => ?_
  obtain ⟨a, ha, rfl⟩ := mem_map.1 hx
  refine if_neg fun heq => h ?_
  rw [← heq]
  exact mem_map_of_mem ha

theorem total_nonneg (h : ∀ a ∈ l, 0 ≤ count a) : 0 ≤ total key count k l := by
  unfold total
  refine sum_nonneg fun x hx => ?_
  obtain ⟨a, ha, rfl⟩ := mem_map.1 hx
  split_ifs
  · exact h a ha
  · exact Int.le_refl _

theorem total_perm {l' : List α} (h : l.Perm l') : total key count k l = total key count k l' :=
  (h.map _).sum_eq

/-- What is kept of a list: every key once, with what it has together, the last key last. -/
structure Merged (key : α → κ) (count : α → ℤ) (cap : ℤ) (l kept : List α) : Prop where
  nodup : (kept.map key).Nodup
  keys  : ∀ k, k ∈ kept.map key ↔ k ∈ l.map key
  count : ∀ m ∈ kept, count m = min cap (total key count (key m) l)
  last  : kept.getLast?.map key = l.getLast?.map key

theorem mergeNeighbours_concat (l : List α) (a : α) :
    mergeNeighbours key combine (l ++ [a]) = mergeInto key combine (mergeNeighbours key combine l) a := by
  unfold mergeNeighbours
  rw [foldl_append]
  rfl

/-- In a sorted list a key that occurs and is not below the others is the last one. -/
theorem last_key (hsorted : l.Pairwise fun a b => key a ≤ key b) (hall : ∀ b ∈ l, key b ≤ k) (hmem : k ∈ l.map key) :
    l.getLast?.map key = some k := by
  obtain ⟨b, hb, rfl⟩ := mem_map.1 hmem
  rcases eq_nil_or_concat l with rfl | ⟨front, last, rfl⟩
  · cases hb
  · rw [concat_eq_append] at *
    rw [getLast?_append, getLast?_singleton, some_or, map_some]
    have hle := hall last (mem_append_right _ (mem_singleton.2 rfl))
    rcases mem_append.1 hb with hb | hb
    · have hge := (pairwise_append.1 hsorted).2.2 b hb last (mem_singleton.2 rfl)
      rw [le_antisymm hle hge]
    · rw [mem_singleton.1 hb]

/-- Merging a sorted list whose counts are not negative and within the cap. -/
theorem merged (hkey : ∀ a b, key (combine a b) = key a) (hcombine : ∀ a b, count (combine a b) = min cap (count a + count b))
    (hsorted : l.Pairwise fun a b => key a ≤ key b) (hcount : ∀ a ∈ l, 0 ≤ count a ∧ count a ≤ cap) :
    Merged key count cap l (mergeNeighbours key combine l) := by
  induction l using reverseRecOn with
  | nil => exact ⟨nodup_nil, fun _ => Iff.rfl, fun m hm => (nomatch hm), rfl⟩
  | append_singleton l a ih =>
    obtain ⟨hsorted', -, hbelow⟩ := pairwise_append.1 hsorted
    have hbelow : ∀ b ∈ l, key b ≤ key a := fun b hb => hbelow b hb a (mem_singleton.2 rfl)
    have hcount' : ∀ b ∈ l, 0 ≤ count b ∧ count b ≤ cap := fun b hb => hcount b (mem_append_left _ hb)
    have ha := hcount a (mem_append_right _ (mem_singleton.2 rfl))
    have h := ih hsorted' hcount'
    rw [mergeNeighbours_concat]
    generalize mergeNeighbours key combine l = kept at h ⊢
    have hother : ∀ k, k ≠ key a → total key count k (l ++ [a]) = total key count k l := by
      intro k hne
      rw [total_append, total_single, if_neg (Ne.symm hne), Int.add_zero]
    have hsame : total key count (key a) (l ++ [a]) = total key count (key a) l + count a := by
      rw [total_append, total_single, if_pos rfl]
    have hlast : (l ++ [a]).getLast?.map key = some (key a) := by
      rw [getLast?_append, getLast?_singleton, some_or, map_some]
    rcases eq_nil_or_concat kept with rfl | ⟨front, last, rfl⟩
    · -- nothing kept: nothing was there
      have hnil : l = [] := by
        cases l with
        | nil => rfl
        | cons b l => exact absurd ((h.keys (key b)).2 (mem_map_of_mem mem_cons_self)) not_mem_nil
      subst hnil
      refine ⟨nodup_singleton _, fun _ => Iff.rfl, fun m hm => ?_, rfl⟩
      rw [mem_singleton.1 hm]
      show count a = min cap (total key count (key a) ([] ++ [a]))
      rw [hsame]
      show count a = min cap (0 + count a)
      omega
    · rw [concat_eq_append] at *
      have hinto : mergeInto key combine (front ++ [last]) a =
          if key last = key a then front ++ [combine last a] else front ++ [last] ++ [a] := by
        unfold mergeInto
        rw [getLast?_append, getLast?_singleton, some_or, dropLast_concat]
      have hlastKey : l.getLast?.map key = some (key last) := by
        rw [← h.last, getLast?_append, getLast?_singleton, some_or, map_some]
      have hnodup := h.nodup
      rw [map_append, map_singleton] at hnodup
      rw [hinto]
      by_cases heq : key last = key a
      · rw [if_pos heq]
        have hmap : (front ++ [combine last a]).map key = (front ++ [last]).map key := by
          rw [map_append, map_append, map_singleton, map_singleton, hkey]
        have hpresent : key a ∈ l.map key := by
          rw [← h.keys, ← heq]
          exact mem_map_of_mem (mem_append_right _ (mem_singleton.2 rfl))
        refine ⟨hmap ▸ h.nodup, fun k => ?_, fun m hm => ?_, ?_⟩
        · rw [hmap, h.keys, map_append, mem_append, map_singleton, mem_singleton]
          exact ⟨Or.inl, fun hor => hor.elim id fun hk => hk ▸ hpresent⟩
        · rcases mem_append.1 hm with hm | hm
          · have hne : key m ≠ key a := by
              intro hma
              have hdisjoint := (nodup_append.1 hnodup).2.2 (key m) (mem_map_of_mem hm) (key last)
                (mem_singleton.2 rfl)
              exact hdisjoint (hma.trans heq.symm)
            rw [hother _ hne]
            exact h.count m (mem_append_left _ hm)
          · rw [mem_singleton.1 hm, hkey, hcombine, h.count last (mem_append_right _ (mem_singleton.2 rfl)),
              heq, hsame]
            have hnonneg := @total_nonneg α κ _ key count l (key a) fun b hb => (hcount' b hb).1
            omega
        · rw [hlast, getLast?_append, getLast?_singleton, some_or, map_some, hkey, heq]
      · rw [if_neg heq]
        have habsent : key a ∉ l.map key := by
          intro hmem
          rw [last_key hsorted' hbelow hmem] at hlastKey
          exact heq (some.inj hlastKey).symm
        have hnew : key a ∉ (front ++ [last]).map key := fun hmem => habsent ((h.keys _).1 hmem)
        refine ⟨?_, fun k => ?_, fun m hm => ?_, ?_⟩
        · rw [map_append, map_singleton]
          refine nodup_append.2 ⟨h.nodup, nodup_singleton _, fun x hx y hy hxy => ?_⟩
          rw [mem_singleton.1 hy] at hxy
          exact hnew (hxy ▸ hx)
        · rw [map_append, mem_append, h.keys, map_append, mem_append]
        · rcases mem_append.1 hm with hm | hm
          · have hne : key m ≠ key a := fun hma => hnew (hma ▸ mem_map_of_mem hm)
            rw [hother _ hne]
            exact h.count m hm
          · rw [mem_singleton.1 hm, hsame, total_absent habsent]
            omega
        · rw [hlast, getLast?_append, getLast?_singleton, some_or, map_some]

/-- A sum over what is kept is a sum over any keys among which all are. -/
theorem sum_merged {β : Type} [AddCommMonoid β] (h : Merged key count cap l kept) (hcap : 0 ≤ cap) (f : κ → ℤ → β)
    (hzero : ∀ k, f k 0 = 0) (S : Finset κ) (hS : ∀ b ∈ l, key b ∈ S) :
    (kept.map fun m => f (key m) (count m)).sum = ∑ k ∈ S, f k (min cap (total key count k l)) := by
  have hkept : (kept.map fun m => f (key m) (count m)).sum =
      ∑ k ∈ (kept.map key).toFinset, f k (min cap (total key count k l)) := by
    rw [sum_toFinset _ h.nodup, map_map]
    refine congrArg sum (map_congr_left fun m hm => ?_)
    rw [Function.comp_apply, h.count m hm]
  rw [hkept]
  refine Finset.sum_subset (fun k hk => ?_) fun k _ hk => ?_
  · obtain ⟨b, hb, rfl⟩ := mem_map.1 ((h.keys k).1 (mem_toFinset.1 hk))
    exact hS b hb
  · have habsent : k ∉ l.map key := fun hmem => hk (mem_toFinset.2 ((h.keys k).2 hmem))
    rw [total_absent habsent, min_eq_right hcap, hzero]

/-- Where no key gets less, the sum does not become less. -/
theorem sum_merged_le {β : Type} [AddCommMonoid β] [PartialOrder β] [IsOrderedAddMonoid β] {l' kept' : List α}
    (h : Merged key count cap l kept) (h' : Merged key count cap l' kept') (hcap : 0 ≤ cap) (f : κ → ℤ → β)
    (hzero : ∀ k, f k 0 = 0)
    (hmono : ∀ b ∈ l, ∀ c c', c ≤ c' → f (key b) c ≤ f (key b) c')
    (hmono' : ∀ b ∈ l', ∀ c c', c ≤ c' → f (key b) c ≤ f (key b) c')
    (hle : ∀ k, total key count k l ≤ total key count k l') :
    (kept.map fun m => f (key m) (count m)).sum ≤ (kept'.map fun m => f (key m) (count m)).sum := by
  let S := (l.map key).toFinset ∪ (l'.map key).toFinset
  have hS : ∀ b ∈ l, key b ∈ S := fun b hb =>
    Finset.mem_union_left _ (mem_toFinset.2 (mem_map_of_mem hb))
  have hS' : ∀ b ∈ l', key b ∈ S := fun b hb =>
    Finset.mem_union_right _ (mem_toFinset.2 (mem_map_of_mem hb))
  rw [sum_merged h hcap f hzero S hS, sum_merged h' hcap f hzero S hS']
  refine Finset.sum_le_sum fun k hk => ?_
  have hmin : min cap (total key count k l) ≤ min cap (total key count k l') := min_le_min_left _ (hle k)
  rcases Finset.mem_union.1 hk with hk | hk
  · obtain ⟨b, hb, rfl⟩ := mem_map.1 (mem_toFinset.1 hk)
    exact hmono b hb _ _ hmin
  · obtain ⟨b, hb, rfl⟩ := mem_map.1 (mem_toFinset.1 hk)
    exact hmono' b hb _ _ hmin

end Merging
