/-
  The texts that a path with wildcards is expanded to.

  If what the segments meet can be written as a path (`Clean`), the texts that are collected are those of the matched
  places (`collect_eq`), each text is read as the parts it was made of (`plainPath_pathText`), and no two are the same.
  `NamedOk` is what the children of one step are for the steps that follow.
-/
import NovaMaas.Override.Wildcard

open Option hiding all_eq_true map_map mem_map

open List

namespace NovaMaas.Override

open Json

/-! ## Texts of places -/

variable {t : Sjson} {f : Edit} {d d' c : Json} {segment part : String} {segments parts : List String}

theorem plainPart_free (h : plainPart part = true) : '.' ∉ part.toList := by
  intro hmem
  unfold plainPart at h
  simp only [Bool.and_eq_true, all_eq_true] at h
  have hspecial := h.1.2 '.' hmem
  revert hspecial
  decide

theorem trimSpace_empty {s : String} : trimSpace s = "" ↔ ∀ ch ∈ s.toList, isSpace ch = true := by
  unfold trimSpace
  constructor
  · intro h ch hch
    have hnil := congrArg String.toList h
    rw [String.toList_ofList, String.toList_empty, reverse_eq_nil_iff, dropWhile_eq_nil_iff] at hnil
    by_contra hspace
    -- what the first pass leaves begins with a character that is no white space
    cases hrest : s.toList.dropWhile isSpace with
    | nil => exact hspace (dropWhile_eq_nil_iff.1 hrest ch hch)
    | cons first =>
      have hfirst := head_dropWhile_not isSpace (l := s.toList) (by rw [hrest]; simp)
      simp only [hrest, head_cons] at hfirst
      have hall := hnil first (by rw [hrest]; simp)
      rw [hfirst] at hall
      cases hall
  · intro h
    have hnil : s.toList.dropWhile isSpace = [] := dropWhile_eq_nil_iff.2 h
    rw [hnil]
    rfl

/-- A text is read as the parts it was made of. -/
theorem plainPath_pathText (hne : parts ≠ []) (hplain : ∀ p ∈ parts, plainPart p = true) :
    plainPath (pathText parts) = some parts := by
  cases parts with
  | nil => exact absurd rfl hne
  | cons p parts =>
    have hsplit : splitList '.' (pathText (p :: parts)) = (p :: parts).map String.toList := by
      unfold pathText joinPath
      rw [map_cons]
      refine splitList_joined (plainPart_free (hplain p mem_cons_self)) fun s hs => ?_
      obtain ⟨q, hq, rfl⟩ := mem_map.1 hs
      exact plainPart_free (hplain q (mem_cons_of_mem p hq))
    have hparts : (splitList '.' (pathText (p :: parts))).map String.ofList = p :: parts := by
      rw [hsplit, map_map]
      exact (map_congr_left fun q _ => String.ofList_toList).trans (map_id _)
    unfold plainPath
    simp only [hparts]
    rw [if_pos (all_eq_true.2 hplain)]

theorem pathText_not_blank (hne : parts ≠ []) (hplain : ∀ p ∈ parts, plainPart p = true) :
    ¬ trimSpace (String.ofList (pathText parts)) = "" := by
  cases parts with
  | nil => exact absurd rfl hne
  | cons p =>
    intro hblank
    have hp := hplain p mem_cons_self
    unfold plainPart at hp
    simp only [Bool.and_eq_true, decide_eq_true_eq] at hp
    refine hp.1.1 (trimSpace_empty.2 fun ch hch => trimSpace_empty.1 hblank ch ?_)
    rw [String.toList_ofList]
    exact mem_append_left _ hch

theorem indexPart_plain (n : ℕ) : plainPart (indexPart n) = true := by
  have hdigit : ∀ ch ∈ itoa n, ch.isDigit = true := fun ch hch => Nat.isDigit_of_mem_toDigits (by decide) (by decide) hch
  have hplainDigit : ∀ ch : Char, ch.isDigit = true → isSpace ch = false ∧ specialChar ch = false ∧
      specialHead ch = false := by
    intro ch hch
    unfold Char.isDigit at hch
    simp only [Bool.and_eq_true, decide_eq_true_eq] at hch
    obtain ⟨hlow, hhigh⟩ := hch
    have hlow' : 48 ≤ ch.toNat := hlow
    have hhigh' : ch.toNat ≤ 57 := hhigh
    have hchar : ch = Char.ofNat ch.toNat := (Char.ofNat_toNat ch).symm
    rw [hchar]
    interval_cases ch.toNat <;> decide
  have htext : (indexPart n).toList = itoa n := String.toList_ofList
  have hne : itoa n ≠ [] := Nat.toDigits_ne_nil
  unfold plainPart
  rw [htext, Bool.and_eq_true, Bool.and_eq_true]
  refine ⟨⟨?_, ?_⟩, ?_⟩
  · -- a digit is no white space
    rw [decide_eq_true_eq]
    unfold trimSpace
    rw [htext]
    cases hdigits : itoa n with
    | nil => exact absurd hdigits hne
    | cons ch =>
      have hch := (hplainDigit ch (hdigit ch (hdigits ▸ mem_cons_self))).1
      rw [dropWhile_cons_of_neg (by simp [hch])]
      intro hempty
      have hnil := congrArg String.toList hempty
      rw [String.toList_ofList, String.toList_empty, reverse_eq_nil_iff, dropWhile_eq_nil_iff] at hnil
      have hspace := hnil ch (mem_reverse.2 mem_cons_self)
      rw [hch] at hspace
      cases hspace
  · rw [all_eq_true]
    intro ch hch
    rw [(hplainDigit ch (hdigit ch hch)).2.1]
    rfl
  · cases hdigits : itoa n with
    | nil => rfl
    | cons ch =>
      rw [head?_cons, any_some, (hplainDigit ch (hdigit ch (hdigits ▸ mem_cons_self))).2.2]
      rfl

theorem index?_indexPart (n : ℕ) : index? (indexPart n) = some n := by
  have htext : (indexPart n).toList = itoa n := String.toList_ofList
  have hdigit : ∀ ch ∈ itoa n, ch.isDigit = true := fun ch hch => Nat.isDigit_of_mem_toDigits (by decide) (by decide) hch
  unfold index?
  rw [htext, if_pos ⟨Nat.toDigits_ne_nil, all_eq_true.2 hdigit⟩]
  exact congrArg some Nat.ofDigitChars_ten_toDigits

theorem uniq_of_nodup {α : Type} [DecidableEq α] {l : List α} (h : l.Nodup) : uniq l = l := by
  have hfold : ∀ (l seen : List α), (seen ++ l).Nodup →
      l.foldl (fun seen a => if a ∈ seen then seen else seen ++ [a]) seen = seen ++ l := by
    intro l
    induction l with
    | nil =>
      intro seen _
      rw [append_nil]
      rfl
    | cons a _ ih =>
      intro seen hnodup
      have hnot : a ∉ seen := by
        intro hmem
        exact (disjoint_of_nodup_append hnodup) hmem mem_cons_self
      rw [foldl_cons, if_neg hnot, ih (seen ++ [a]) (by rwa [append_assoc, singleton_append]),
        append_assoc, singleton_append]
  exact hfold l [] h

/-! ## The matched places, in the order of the code -/

/-- The children under `*`. -/
def namedChildren : Json → List (String × Json)
  | obj fields => (sortedKeys fields).map fun key => (key, (fields.lookup key).getD null)
  | arr items => (range items.length).map fun i => (indexPart i, items[i]?.getD null)
  | _ => []

/-- The children that a segment matches, with their parts. -/
def named (segment : String) (d : Json) : List (String × Json) :=
  if segment = "*" then namedChildren d else (((slot d segment).bind (childAt d)).toList.map fun c => (segment, c))

/-- The matched places. -/
def matchParts : List String → Json → List (List String)
  | [], _ => [[]]
  | segment :: segments, d =>
    if segment = "" then []
    else if segments = [] ∧ absentField segment d = true then [[segment]]
    else (named segment d).flatMap fun e => (matchParts segments e.2).map (e.1 :: ·)

variable {fields : JsonObject}

/-- A key that stands at most once has one value. -/
theorem goField_eq {key : String} (honce : (fields.map Prod.fst).count key ≤ 1) :
    goField fields key = fields.lookup key := by
  unfold goField
  induction fields with
  | nil => rfl
  | cons field fields ih =>
    obtain ⟨k, v⟩ := field
    rw [map_cons, count_cons] at honce
    rw [reverse_cons, lookup_append, ih (Nat.le_trans (Nat.le_add_right _ _) honce)]
    by_cases hk : key = k
    · subst hk
      have habsent : fields.lookup key = none := by
        rw [lookup_eq_none_iff]
        intro field hfield
        rw [bne_iff_ne]
        intro heq
        have hpos := count_pos_iff.2 (heq ▸ mem_map_of_mem hfield : key ∈ fields.map Prod.fst)
        simp only [beq_self_eq_true, if_true] at honce
        omega
      rw [habsent, lookup_head, lookup_head]
      rfl
    · rw [lookup_tail hk, lookup_tail hk]
      exact or_none

theorem mem_sortedKeys {key : String} : key ∈ sortedKeys fields ↔ key ∈ fields.map Prod.fst := by
  unfold sortedKeys
  rw [(perm_insertionSort _ _).mem_iff, mem_dedup]

theorem sortedKeys_nodup (fields : JsonObject) : (sortedKeys fields).Nodup :=
  (perm_insertionSort _ _).nodup_iff.2 (nodup_dedup _)

theorem lookup_of_mem (hnodup : (fields.map Prod.fst).Nodup) {field : String × Json}
    (hmem : field ∈ fields) : fields.lookup field.1 = some field.2 := by
  induction fields with
  | nil => cases hmem
  | cons head _ ih =>
    rw [map_cons, nodup_cons] at hnodup
    rcases mem_cons.1 hmem with rfl | hrest
    · exact lookup_head _ _ _
    · have hne : field.1 ≠ head.1 := by
        rintro heq
        exact hnodup.1 (heq ▸ mem_map_of_mem hrest)
      obtain ⟨k, v⟩ := head
      rw [lookup_tail hne, ih hnodup.2 hrest]

theorem exists_of_key {key : String} (hmem : key ∈ fields.map Prod.fst) : ∃ v, fields.lookup key = some v := by
  cases hlookup : fields.lookup key with
  | some v => exact ⟨v, rfl⟩
  | none =>
    obtain ⟨field, hfield, rfl⟩ := mem_map.1 hmem
    have hne := lookup_eq_none_iff.1 hlookup field hfield
    rw [bne_iff_ne] at hne
    exact absurd rfl hne

/-- What the children of a clean step are: plain parts, in different slots of the container. -/
structure NamedOk (segment : String) (d : Json) : Prop where
  plain : ∀ e ∈ named segment d, plainPart e.1 = true
  child : ∀ e ∈ named segment d, ∃ s, slot d e.1 = some s ∧ childAt d s = some e.2
  apart : (named segment d).Pairwise fun e e' => slot d e.1 ≠ slot d e'.1
  matched : ∀ c, c ∈ matchedChildren segment d ↔ ∃ e ∈ named segment d, e.2 = c

theorem named_literal (hstar : segment ≠ "*")
    (hplain : ∀ c, (slot d segment).bind (childAt d) = some c → plainPart segment = true) : NamedOk segment d := by
  cases hchild : (slot d segment).bind (childAt d) with
  | none =>
    constructor
    all_goals simp [named, matchedChildren, hstar, hchild]
  | some c =>
    obtain ⟨s, hs, hc⟩ := bind_eq_some_iff.1 hchild
    have hnamed : named segment d = [(segment, c)] := by
      simp [named, hstar, hchild]
    constructor
    · intro e he
      rw [hnamed, mem_singleton] at he
      subst he
      exact hplain c hchild
    · intro e he
      rw [hnamed, mem_singleton] at he
      subst he
      exact ⟨s, hs, hc⟩
    · rw [hnamed]
      exact pairwise_singleton _ _
    · intro x
      rw [hnamed]
      simp [matchedChildren, hstar, hchild, eq_comm]

theorem named_star (hclean : cleanStep "*" d = true) : NamedOk "*" d := by
  cases d with
  | obj fields =>
    unfold cleanStep at hclean
    simp only [if_true, Bool.and_eq_true, decide_eq_true_eq, all_eq_true] at hclean
    obtain ⟨hnodup, hplain⟩ := hclean
    have hnamed : named "*" (obj fields) = (sortedKeys fields).map fun key => (key, (fields.lookup key).getD null) := rfl
    have hkey : ∀ key ∈ sortedKeys fields, ∃ v, fields.lookup key = some v :=
      fun key hkey => exists_of_key (mem_sortedKeys.1 hkey)
    constructor
    · intro e he
      rw [hnamed] at he
      obtain ⟨key, hmem, rfl⟩ := mem_map.1 he
      obtain ⟨field, hfield, rfl⟩ := mem_map.1 (mem_sortedKeys.1 hmem)
      exact hplain field hfield
    · intro e he
      rw [hnamed] at he
      obtain ⟨key, hmem, rfl⟩ := mem_map.1 he
      obtain ⟨v, hv⟩ := hkey key hmem
      refine ⟨.key key, rfl, ?_⟩
      show fields.lookup key = some ((fields.lookup key).getD null)
      rw [hv]
      rfl
    · rw [hnamed, pairwise_map]
      refine (sortedKeys_nodup fields).imp fun hne heq => ?_
      exact hne (Slot.key.inj (some.inj heq))
    · intro c
      show c ∈ fields.map Prod.snd ↔ _
      rw [hnamed, mem_map]
      constructor
      · rintro ⟨field, hfield, rfl⟩
        refine ⟨(field.1, (fields.lookup field.1).getD null), ?_, ?_⟩
        · exact mem_map.2 ⟨field.1, mem_sortedKeys.2 (mem_map_of_mem hfield), rfl⟩
        · rw [lookup_of_mem hnodup hfield]
          rfl
      · rintro ⟨e, he, rfl⟩
        obtain ⟨key, hmem, rfl⟩ := mem_map.1 he
        obtain ⟨field, hfield, rfl⟩ := mem_map.1 (mem_sortedKeys.1 hmem)
        refine ⟨field, hfield, ?_⟩
        rw [lookup_of_mem hnodup hfield]
        rfl
  | arr items =>
    have hnamed : named "*" (arr items) = (range items.length).map fun i => (indexPart i, items[i]?.getD null) := rfl
    have hslot : ∀ i, slot (arr items) (indexPart i) = some (.item i) := by
      intro i
      show (index? (indexPart i)).map Slot.item = some (.item i)
      rw [index?_indexPart]
      rfl
    constructor
    · intro e he
      rw [hnamed] at he
      obtain ⟨i, -, rfl⟩ := mem_map.1 he
      exact indexPart_plain i
    · intro e he
      rw [hnamed] at he
      obtain ⟨i, hi, rfl⟩ := mem_map.1 he
      refine ⟨.item i, hslot i, ?_⟩
      show items[i]? = some (items[i]?.getD null)
      rw [getElem?_eq_getElem (mem_range.1 hi)]
      rfl
    · rw [hnamed, pairwise_map]
      refine nodup_range.imp fun hne heq => ?_
      rw [hslot, hslot] at heq
      exact hne (Slot.item.inj (some.inj heq))
    · intro c
      show c ∈ items ↔ _
      rw [hnamed, mem_iff_getElem?]
      constructor
      · rintro ⟨i, hi⟩
        obtain ⟨hlt, -⟩ := List.getElem?_eq_some_iff.1 hi
        refine ⟨(indexPart i, items[i]?.getD null), mem_map.2 ⟨i, mem_range.2 hlt, rfl⟩, ?_⟩
        rw [hi]
        rfl
      · rintro ⟨e, he, rfl⟩
        obtain ⟨i, hi, rfl⟩ := mem_map.1 he
        refine ⟨i, ?_⟩
        rw [getElem?_eq_getElem (mem_range.1 hi)]
        rfl
  | null | bool | num | str =>
    constructor
    all_goals simp [named, namedChildren, matchedChildren]

theorem namedOk (hclean : cleanStep segment d = true) : NamedOk segment d := by
  by_cases hstar : segment = "*"
  · subst hstar
    exact named_star hclean
  · refine named_literal hstar fun c hchild => ?_
    cases d with
    | obj =>
      unfold cleanStep at hclean
      simp only [if_neg hstar, Bool.and_eq_true] at hclean
      exact hclean.2
    | arr =>
      unfold cleanStep at hclean
      simp only [decide_eq_false hstar, Bool.false_or, Bool.and_eq_true] at hclean
      exact hclean.1
    | null | bool | num | str => cases hchild

/-- Below a clean step everything is clean. -/
theorem clean_named (hclean : Clean (segment :: segments) d) (hne : segment ≠ "") :
    NamedOk segment d ∧ ∀ e ∈ named segment d, Clean segments e.2 := by
  rcases hclean with hempty | ⟨hstep, hchildren⟩
  · exact absurd hempty hne
  · have hok := namedOk hstep
    exact ⟨hok, fun e he => hchildren e.2 ((hok.matched e.2).2 ⟨e, he, rfl⟩)⟩

theorem absent_plain (hclean : Clean (segment :: segments) d) (hne : segment ≠ "")
    (habsent : absentField segment d = true) :
    segment ≠ "*" ∧ plainPart segment = true ∧ slot d segment = some (.key segment) ∧
      childAt d (.key segment) = none ∧ fits d (.key segment) = true ∧ named segment d = [] := by
  rcases hclean with hempty | ⟨hstep, -⟩
  · exact absurd hempty hne
  · cases d with
    | obj fields =>
      unfold absentField at habsent
      simp only [Bool.and_eq_true, decide_eq_true_eq] at habsent
      obtain ⟨hstar, hnone⟩ := habsent
      have hlookup : fields.lookup segment = none := isNone_iff_eq_none.1 hnone
      unfold cleanStep at hstep
      simp only [if_neg hstar, Bool.and_eq_true] at hstep
      refine ⟨hstar, hstep.2, rfl, hlookup, rfl, ?_⟩
      unfold named
      rw [if_neg hstar]
      show (toList (fields.lookup segment)).map _ = []
      rw [hlookup]
      rfl
    | arr | null | bool | num | str => cases habsent

/-- The parts of the matched places are plain, and there is one for each segment. -/
theorem matchParts_plain : ∀ {segments : List String} {d : Json}, Clean segments d →
    ∀ ps ∈ matchParts segments d, ps.length = segments.length ∧ ∀ p ∈ ps, plainPart p = true := by
  intro segments
  induction segments with
  | nil =>
    intro d _ ps hps
    rw [matchParts, mem_singleton] at hps
    subst hps
    exact ⟨rfl, fun p hp => absurd hp not_mem_nil⟩
  | cons _ _ ih =>
    intro d hclean ps hps
    rw [matchParts] at hps
    split_ifs at hps with hempty habsent
    · cases hps
    · obtain ⟨-, hplain, -⟩ := absent_plain hclean hempty habsent.2
      rw [mem_singleton] at hps
      subst hps
      refine ⟨by rw [habsent.1], fun p hp => ?_⟩
      rw [mem_singleton.1 hp]
      exact hplain
    · obtain ⟨hok, hbelow⟩ := clean_named hclean hempty
      obtain ⟨e, he, hps⟩ := mem_flatMap.1 hps
      obtain ⟨qs, hqs, rfl⟩ := mem_map.1 hps
      obtain ⟨hlength, hplain⟩ := ih (hbelow e he) qs hqs
      refine ⟨by rw [length_cons, length_cons, hlength], fun p hp => ?_⟩
      rcases mem_cons.1 hp with rfl | hp
      · exact hok.plain e he
      · exact hplain p hp

theorem matchParts_nodup : ∀ {segments : List String} {d : Json}, Clean segments d → (matchParts segments d).Nodup := by
  intro segments
  induction segments with
  | nil =>
    intro d _
    exact nodup_singleton _
  | cons _ _ ih =>
    intro d hclean
    rw [matchParts]
    split_ifs with hempty habsent
    · exact nodup_nil
    · exact nodup_singleton _
    · obtain ⟨hok, hbelow⟩ := clean_named hclean hempty
      rw [nodup_flatMap]
      refine ⟨fun e he => (ih (hbelow e he)).map fun a b heq => (cons.inj heq).2, ?_⟩
      refine hok.apart.imp fun {e e'} hne => ?_
      show List.Disjoint _ _
      intro ps hps hps'
      obtain ⟨qs, -, rfl⟩ := mem_map.1 hps
      obtain ⟨qs', -, heq⟩ := mem_map.1 hps'
      exact hne (congrArg (slot d) (cons.inj heq).1.symm)

/-- The code collects the texts of the matched places. -/
theorem collect_eq : ∀ {raws : List String} {d : Json} {reached : List String}, Clean (raws.map trimSpace) d →
    collectWildcardPaths raws d reached =
      (matchParts (raws.map trimSpace) d).map fun ps => pathText (reached ++ ps) := by
  intro raws
  induction raws with
  | nil =>
    intro d reached _
    rw [collectWildcardPaths, map_nil, matchParts, map_singleton, append_nil]
  | cons raw raws ih =>
    intro d reached hclean
    rw [map_cons] at hclean ⊢
    simp only [collectWildcardPaths, matchParts]
    generalize trimSpace raw = segment at hclean ⊢
    by_cases hempty : segment = ""
    · rw [if_pos hempty, if_pos hempty, map_nil]
    obtain ⟨hok, hbelow⟩ := clean_named hclean hempty
    -- below a child the texts begin with its part
    have hchild : ∀ e ∈ named segment d, collectWildcardPaths raws e.2 (reached ++ [e.1]) =
        ((matchParts (raws.map trimSpace) e.2).map (e.1 :: ·)).map fun ps => pathText (reached ++ ps) := by
      intro e he
      rw [ih (hbelow e he), map_map]
      refine map_congr_left fun ps _ => ?_
      rw [Function.comp_apply, append_assoc, singleton_append]
    have hnamed : ((named segment d).flatMap fun e => collectWildcardPaths raws e.2 (reached ++ [e.1])) =
        ((named segment d).flatMap fun e => (matchParts (raws.map trimSpace) e.2).map (e.1 :: ·)).map
          fun ps => pathText (reached ++ ps) := by
      rw [map_flatMap]
      exact flatMap_congr hchild
    rw [if_neg hempty, if_neg hempty]
    by_cases hstar : segment = "*"
    · subst hstar
      have hnot : ¬ (raws.map trimSpace = [] ∧ absentField "*" d = true) := by
        rintro ⟨-, habsent⟩
        cases d <;> simp [absentField] at habsent
      rw [if_pos (rfl : "*" = "*"), if_neg hnot, ← hnamed]
      cases d with
      | obj fields =>
        rcases hclean with h | ⟨hstep, -⟩
        · exact absurd h hempty
        · unfold cleanStep at hstep
          simp only [if_true, Bool.and_eq_true, decide_eq_true_eq] at hstep
          show (sortedKeys fields).flatMap _ = ((sortedKeys fields).map _).flatMap _
          rw [flatMap_map]
          simp only [goField_eq (nodup_iff_count_le_one.1 hstep.1 _)]
      | arr items =>
        show (range items.length).flatMap _ = ((range items.length).map _).flatMap _
        rw [flatMap_map]
      | null | bool | num | str => rfl
    · rw [if_neg hstar]
      cases d with
      | obj fields =>
        rcases hclean with h | ⟨hstep, -⟩
        · exact absurd h hempty
        · unfold cleanStep at hstep
          simp only [if_neg hstar, Bool.and_eq_true, decide_eq_true_eq] at hstep
          have hnamedObj : named segment (obj fields) = (fields.lookup segment).toList.map fun c => (segment, c) := by
            unfold named
            rw [if_neg hstar]
            rfl
          cases hlookup : fields.lookup segment with
          | none =>
            have habsent : absentField segment (obj fields) = true := by simp [absentField, hstar, hlookup]
            by_cases hlast : raws = []
            · subst hlast
              simp [habsent]
            · have hlast' : raws.map trimSpace ≠ [] := fun h => hlast (map_eq_nil_iff.1 h)
              simp [hlast, goField_eq hstep.1, hlookup, hnamedObj]
          | some =>
            have hpresent : absentField segment (obj fields) = false := by simp [absentField, hlookup]
            rw [if_neg (by simp [hpresent]), ← hnamed, hnamedObj, hlookup]
            by_cases hlast : raws = []
            · subst hlast
              simp [collectWildcardPaths]
            · simp [hlast, goField_eq hstep.1, hlookup]
      | arr items =>
        rcases hclean with h | ⟨hstep, -⟩
        · exact absurd h hempty
        · unfold cleanStep at hstep
          simp only [decide_eq_false hstar, Bool.false_or, Bool.and_eq_true, decide_eq_true_eq] at hstep
          have hpresent : absentField segment (arr items) = false := rfl
          rw [if_neg (by simp [hpresent]), ← hnamed]
          have hnamedArr : named segment (arr items) =
              (((index? segment).map Slot.item).bind (childAt (arr items))).toList.map fun c => (segment, c) := by
            unfold named
            rw [if_neg hstar]
            rfl
          rw [hnamedArr]
          cases hindex : index? segment with
          | none =>
            have hliteral : literalIndex segment items = none := by rw [hstep.2, hindex, filter_none]
            simp [hliteral]
          | some n =>
            by_cases hlt : n < items.length
            · have hliteral : literalIndex segment items = some n := by
                rw [hstep.2, hindex]
                exact filter_some_pos (decide_eq_true hlt)
              by_cases hlast : raws = []
              · subst hlast
                simp [hliteral, hlt, childAt, collectWildcardPaths]
              · simp [hliteral, hlt, hlast, childAt]
            · have hliteral : literalIndex segment items = none := by
                rw [hstep.2, hindex]
                exact filter_some_neg (by simpa using Nat.le_of_not_lt hlt)
              have hget : items[n]? = none := getElem?_eq_none (by omega)
              simp [hliteral, hget, childAt]
      | null | bool | num | str =>
        simp [absentField, named, hstar, slot]

end NovaMaas.Override
