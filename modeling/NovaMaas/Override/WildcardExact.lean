/-
  When an operation at a path with wildcards changes exactly the matched places.

  Writing or deleting below a child is doing it in the child (`Local`), so the steps below one child leave the other
  children alone, and working off all places is working off each child's places in it (`run_named`).  For an edit this
  goes down to the places themselves (`edit_run`).  A deletion changes the container it happens in, and in a list every
  deletion moves up the elements that are still to come: of a list, `*` deletes every other element (`survivors`).
-/
import NovaMaas.Override.WildcardTexts
import NovaMaas.Lib.Except

open Option hiding filter_filter forall_mem_map map_id' map_map

open List

namespace NovaMaas.Override

open Json

variable {t : Sjson} {f : Edit} {d d' c : Json} {segment part : String} {segments parts : List String}

/-! ## Steps below a child -/

/-- A step at a place given by its parts; `none` is an error. -/
abbrev Act := Json → List String → Option Json

/-- At the places `ok` a step below a child is the step in the child. -/
def Local (act : Act) (ok : List String → Prop) : Prop :=
  ∀ d p s c ps, ok ps → slot d p = some s → childAt d s = some c → act d (p :: ps) = (act c ps).map (putChild d s)

variable {act : Act} {ok : List String → Prop} {g : Json → Json} {s : Slot}

theorem putField_putField (k : String) (v w : Json) (fields : JsonObject) :
    putField k w (putField k v fields) = putField k w fields := by
  induction fields with
  | nil => simp [putField]
  | cons field _ ih =>
    obtain ⟨k', v'⟩ := field
    by_cases hk : k = k'
    · simp [putField, hk]
    · simp [putField, hk, ih]

theorem putChild_putChild (hchild : childAt d s = some c) (v w : Json) :
    putChild (putChild d s v) s w = putChild d s w := by
  rcases fits_cases (fits_of_child hchild) with ⟨fields, k, rfl, rfl⟩ | ⟨items, n, rfl, rfl, -⟩
  · exact congrArg obj (putField_putField k v w fields)
  · obtain ⟨hlt, -⟩ := List.getElem?_eq_some_iff.1 hchild
    have hlt' : n < (items.set n v).length := by rw [length_set]; exact hlt
    rw [putChild_within hlt, putChild_within hlt', putChild_within hlt, set_set]

theorem run_child (hlocal : Local act ok) {p : String} : ∀ {pss : List (List String)} {d c : Json},
    (∀ ps ∈ pss, ok ps) → slot d p = some s → childAt d s = some c →
      (pss.map (p :: ·)).foldlM act d = (pss.foldlM act c).map (putChild d s) := by
  intro pss
  induction pss with
  | nil =>
    intro d c _ _ hchild
    show some d = some (putChild d s c)
    rw [putChild_self hchild]
  | cons ps pss ih =>
    intro d c hok hs hchild
    rw [map_cons, foldlM_cons, foldlM_cons, hlocal d p s c ps (hok ps mem_cons_self) hs hchild]
    cases act c ps with
    | none => rfl
    | some c' =>
      show (pss.map (p :: ·)).foldlM act (putChild d s c') = (pss.foldlM act c').map (putChild d s)
      rw [ih (fun qs hqs => hok qs (mem_cons_of_mem ps hqs)) ((slot_putChild d s c' p).trans hs)
        (childAt_putChild_self (fits_of_child hchild) c')]
      cases pss.foldlM act c' with
      | none => rfl
      | some x => exact congrArg some (putChild_putChild hchild c' x)

/-- The container with a child in the slot of a part. -/
def putAt (d : Json) (p : String) (c : Json) : Json :=
  match slot d p with
  | some s => putChild d s c
  | none => d

theorem putAt_slot {p : String} (hs : slot d p = some s) (c : Json) : putAt d p c = putChild d s c := by
  unfold putAt
  rw [hs]

/-- Working off the places of all children is working off each child's places in it. -/
theorem run_named (hlocal : Local act ok) {ms : Json → List (List String)} : ∀ {entries : List (String × Json)} {d : Json},
    (∀ e ∈ entries, ∀ ps ∈ ms e.2, ok ps) →
    (∀ e ∈ entries, ∃ s, slot d e.1 = some s ∧ childAt d s = some e.2) →
    (entries.Pairwise fun e e' => slot d e.1 ≠ slot d e'.1) →
      (entries.flatMap fun e => (ms e.2).map (e.1 :: ·)).foldlM act d =
        entries.foldlM (fun d e => ((ms e.2).foldlM act e.2).map (putAt d e.1)) d := by
  intro entries
  induction entries with
  | nil =>
    intro d _ _ _
    rfl
  | cons e entries ih =>
    intro d hok hchild hapart
    obtain ⟨s, hs, hc⟩ := hchild e mem_cons_self
    rw [pairwise_cons] at hapart
    rw [flatMap_cons, foldlM_append, foldlM_cons, run_child hlocal (hok e mem_cons_self) hs hc]
    cases (ms e.2).foldlM act e.2 with
    | none => rfl
    | some c' =>
      show (entries.flatMap _).foldlM act (putChild d s c') = entries.foldlM _ (putAt d e.1 c')
      rw [putAt_slot hs]
      -- the other children are in other slots
      refine ih (fun e' he' => hok e' (mem_cons_of_mem e he')) (fun e' he' => ?_) ?_
      · obtain ⟨s', hs', hc'⟩ := hchild e' (mem_cons_of_mem e he')
        have hne : s' ≠ s := by
          rintro rfl
          exact hapart.1 e' he' (hs.trans hs'.symm)
        exact ⟨s', (slot_putChild d s c' e'.1).trans hs', (childAt_putChild_ne (fits_of_child hc) hne c').trans hc'⟩
      · refine hapart.2.imp fun {a b} hne => ?_
        rw [slot_putChild, slot_putChild]
        exact hne

/-- If every child's run is known, so is the run of all. -/
theorem run_known {r : Json → Option Json} {q : Json → Prop} : ∀ {entries : List (String × Json)} {d d' : Json},
    (∀ e ∈ entries, ∀ c', r e.2 = some c' ↔ q e.2 ∧ c' = g e.2) →
      (entries.foldlM (fun d e => (r e.2).map (putAt d e.1)) d = some d' ↔
        (∀ e ∈ entries, q e.2) ∧ d' = entries.foldl (fun d e => putAt d e.1 (g e.2)) d) := by
  intro entries
  induction entries with
  | nil =>
    intro d d' _
    constructor
    · intro h
      cases h
      exact ⟨fun e he => absurd he not_mem_nil, rfl⟩
    · rintro ⟨-, rfl⟩
      rfl
  | cons e _ ih =>
    intro d d' hrun
    have hhead := hrun e mem_cons_self
    have htail := fun d => @ih d d' fun e' he' => hrun e' (mem_cons_of_mem e he')
    rw [foldlM_cons, foldl_cons]
    constructor
    · intro h
      obtain ⟨mid, hmid, h⟩ := bind_eq_some_iff.1 h
      obtain ⟨c', hc', rfl⟩ := map_eq_some_iff.1 hmid
      obtain ⟨hgood, rfl⟩ := (hhead c').1 hc'
      obtain ⟨hrest, rfl⟩ := (htail _).1 h
      refine ⟨fun e' he' => ?_, rfl⟩
      rcases mem_cons.1 he' with rfl | he'
      · exact hgood
      · exact hrest e' he'
    · rintro ⟨hgood, rfl⟩
      refine bind_eq_some_iff.2 ⟨putAt d e.1 (g e.2), ?_, ?_⟩
      · rw [(hhead (g e.2)).2 ⟨hgood e mem_cons_self, rfl⟩]
        rfl
      · exact (htail _).2 ⟨fun e' he' => hgood e' (mem_cons_of_mem e he'), rfl⟩

theorem putField_map {k : String} {v : Json} {fields : JsonObject} (hnodup : (fields.map Prod.fst).Nodup)
    (hmem : k ∈ fields.map Prod.fst) :
    putField k v fields = fields.map fun field => (field.1, if field.1 = k then v else field.2) := by
  induction fields with
  | nil => cases hmem
  | cons field fields ih =>
    obtain ⟨k', v'⟩ := field
    rw [map_cons, nodup_cons] at hnodup
    rw [putField, map_cons]
    by_cases hk : k = k'
    · subst hk
      rw [if_pos rfl, if_pos rfl]
      refine congrArg _ ?_
      have hsame : (fields.map fun field => (field.1, if field.1 = k then v else field.2)) =
          fields.map fun field => field := by
        refine map_congr_left fun field hfield => ?_
        have hne : field.1 ≠ k := fun heq => hnodup.1 (mem_map.2 ⟨field, hfield, heq⟩)
        rw [if_neg hne]
      rw [hsame, map_id']
    · rw [if_neg hk, if_neg (Ne.symm hk)]
      rw [map_cons] at hmem
      rcases mem_cons.1 hmem with heq | hmem
      · exact absurd heq hk
      · rw [ih hnodup.2 hmem]

theorem putAt_keys {h : String → Json} : ∀ {ks : List String} {fields : JsonObject}, (fields.map Prod.fst).Nodup →
    (∀ k ∈ ks, k ∈ fields.map Prod.fst) → ks.foldl (fun d k => putAt d k (h k)) (obj fields) =
        obj (fields.map fun field => (field.1, if field.1 ∈ ks then h field.1 else field.2)) := by
  intro ks
  induction ks with
  | nil =>
    intro fields _ _
    simp
  | cons k ks ih =>
    intro fields hnodup hmem
    have hput : putAt (obj fields) k (h k) = obj (putField k (h k) fields) := rfl
    rw [foldl_cons, hput, putField_map hnodup (hmem k mem_cons_self)]
    have hkeys : (fields.map fun field => (field.1, if field.1 = k then h k else field.2)).map Prod.fst =
        fields.map Prod.fst := by
      rw [map_map]
      rfl
    rw [ih (by rw [hkeys]; exact hnodup) (fun k' hk' => by rw [hkeys]; exact hmem k' (mem_cons_of_mem k hk')),
      map_map]
    refine congrArg obj (map_congr_left fun field _ => ?_)
    show (field.1, if field.1 ∈ ks then h field.1 else if field.1 = k then h k else field.2) = _
    by_cases hlater : field.1 ∈ ks
    · rw [if_pos hlater, if_pos (mem_cons_of_mem k hlater)]
    · rw [if_neg hlater]
      by_cases hk : field.1 = k
      · rw [if_pos hk, if_pos (hk ▸ mem_cons_self), hk]
      · rw [if_neg hk, if_neg (by simp [hk, hlater])]

theorem slot_index (items : List Json) (i : ℕ) : slot (arr items) (indexPart i) = some (.item i) := by
  show (index? (indexPart i)).map Slot.item = some (.item i)
  rw [index?_indexPart]
  rfl

theorem putAt_items {h : ℕ → Json} : ∀ {is : List ℕ} {items : List Json}, (∀ i ∈ is, i < items.length) →
    is.foldl (fun d i => putAt d (indexPart i) (h i)) (arr items) =
      arr (items.mapIdx fun i x => if i ∈ is then h i else x) := by
  intro is
  induction is with
  | nil =>
    intro items _
    exact congrArg arr (ext_getElem (by simp) fun n _ _ => by simp)
  | cons i is ih =>
    intro items hmem
    have hput : putAt (arr items) (indexPart i) (h i) = arr (items.set i (h i)) := by
      rw [putAt_slot (slot_index items i), putChild_within (hmem i mem_cons_self)]
    rw [foldl_cons, hput, ih fun j hj => by rw [length_set]; exact hmem j (mem_cons_of_mem i hj)]
    refine congrArg arr (ext_getElem (by simp) fun n hn _ => ?_)
    rw [getElem_mapIdx, getElem_mapIdx, getElem_set]
    by_cases hlater : n ∈ is
    · rw [if_pos hlater, if_pos (mem_cons_of_mem i hlater)]
    · rw [if_neg hlater]
      by_cases hi : i = n
      · subst hi
        rw [if_pos rfl, if_pos mem_cons_self]
      · rw [if_neg hi, if_neg (by simp [Ne.symm hi, hlater])]

/-- All matched children put back changed. -/
theorem put_named (hstep : cleanStep segment d = true) :
    (named segment d).foldl (fun d e => putAt d e.1 (g e.2)) d = mapMatched segment g d := by
  by_cases hstar : segment = "*"
  · subst hstar
    unfold mapMatched
    rw [if_pos rfl]
    cases d with
    | obj fields =>
      unfold cleanStep at hstep
      simp only [if_true, Bool.and_eq_true, decide_eq_true_eq] at hstep
      show ((sortedKeys fields).map fun key => (key, (fields.lookup key).getD null)).foldl _ (obj fields) = _
      rw [foldl_map, putAt_keys hstep.1 fun k hk => mem_sortedKeys.1 hk]
      refine congrArg obj (map_congr_left fun field hfield => ?_)
      rw [if_pos (mem_sortedKeys.2 (mem_map_of_mem hfield)), lookup_of_mem hstep.1 hfield]
      rfl
    | arr items =>
      show ((range items.length).map fun i => (indexPart i, items[i]?.getD null)).foldl _ (arr items) = _
      rw [foldl_map, putAt_items fun i hi => mem_range.1 hi]
      refine congrArg arr (ext_getElem (by simp) fun n hn _ => ?_)
      have hlt : n < items.length := by simpa using hn
      rw [getElem_mapIdx, if_pos (mem_range.2 hlt), getElem_map, getElem?_eq_getElem hlt]
      rfl
    | null | bool | num | str => rfl
  · unfold mapMatched named
    rw [if_neg hstar, if_neg hstar]
    cases hs : slot d segment with
    | none => rfl
    | some s =>
      cases hc : childAt d s with
      | none =>
        simp [hc]
      | some =>
        simp [hc, putAt_slot hs]

/-! ## Edits -/

/-- An edit at a place. -/
def editAt (f : Edit) : Act := fun d ps =>
  match f (at? d ps) with
  | .error _ => none
  | .ok none => some d
  | .ok (some v) => set? d ps v

theorem editAt_local (f : Edit) : Local (editAt f) fun _ => True := by
  intro d p s c ps _ hs hchild
  unfold editAt
  rw [at?_cons_child hs hchild]
  cases f (at? c ps) with
  | error => rfl
  | ok v? =>
    cases v? with
    | none => exact congrArg some (putChild_self hchild).symm
    | some v => exact set?_child hs hchild v

/-- Working off the matched places edits them all, and succeeds if the edit has an answer everywhere. -/
theorem edit_run (f : Edit) : ∀ {segments : List String} {d : Json}, Clean segments d → ∀ d',
    (matchParts segments d).foldlM (editAt f) d = some d' ↔ EditsOk f segments d ∧ d' = editMatched f segments d := by
  intro segments
  induction segments with
  | nil =>
    intro d _ d'
    rw [matchParts, foldlM_cons]
    simp only [foldlM_nil, bind_pure]
    unfold editAt EditsOk editMatched edited
    rw [at?_nil]
    cases f (some d) with
    | error =>
      constructor
      · intro h
        cases h
      · rintro ⟨⟨v, hv⟩, -⟩
        cases hv
    | ok v? =>
      cases v? with
      | none =>
        constructor
        · intro h
          cases h
          exact ⟨⟨none, rfl⟩, rfl⟩
        · rintro ⟨-, rfl⟩
          rfl
      | some v =>
        constructor
        · intro h
          replace h : set? d [] v = some d' := h
          rw [set?] at h
          exact ⟨⟨some v, rfl⟩, (some.inj h).symm⟩
        · rintro ⟨-, h⟩
          rw [h]
          show set? d [] v = some v
          rw [set?]
  | cons segment segments ih =>
    intro d hclean d'
    rw [matchParts, EditsOk, editMatched]
    by_cases hempty : segment = ""
    · rw [if_pos hempty, if_pos hempty]
      constructor
      · intro h
        cases h
        exact ⟨Or.inl hempty, rfl⟩
      · rintro ⟨-, rfl⟩
        rfl
    rw [if_neg hempty, if_neg hempty, or_iff_right hempty]
    obtain ⟨hok, hbelow⟩ := clean_named hclean hempty
    have hstep : cleanStep segment d = true := (hclean.resolve_left hempty).1
    by_cases habsent : segments = [] ∧ absentField segment d = true
    · -- a field that is not there yet
      obtain ⟨-, -, hs, hnone, -, hnamed⟩ := absent_plain hclean hempty habsent.2
      have hchildren : ∀ c ∈ matchedChildren segment d, EditsOk f segments c := by
        intro c hc
        obtain ⟨e, he, -⟩ := (hok.matched c).1 hc
        rw [hnamed] at he
        cases he
      have hat : at? d [segment] = none := by rw [at?_cons hs, hnone]; rfl
      have hset : ∀ v, set? d [segment] v = some (putChild d (.key segment) v) := by
        intro v
        rw [set?_absent hs hnone]
        rfl
      rw [if_pos habsent, if_pos habsent, foldlM_cons]
      simp only [foldlM_nil, bind_pure]
      unfold editAt edited
      rw [hat]
      cases f none with
      | error =>
        constructor
        · intro h
          cases h
        · rintro ⟨⟨hanswer, -⟩, -⟩
          obtain ⟨v, hv⟩ := hanswer habsent.1 habsent.2
          cases hv
      | ok v? =>
        refine Iff.trans ?_ (and_iff_right ⟨fun _ _ => ⟨v?, rfl⟩, hchildren⟩).symm
        cases v? with
        | none =>
          constructor
          · intro h
            cases h
            rfl
          · rintro rfl
            rfl
        | some v =>
          show set? d [segment] v = some d' ↔ d' = putChild d (.key segment) v
          rw [hset]
          constructor
          · intro h
            cases h
            rfl
          · rintro rfl
            rfl
    · rw [if_neg habsent, if_neg habsent]
      have hvacuous : segments = [] → absentField segment d = true → ∃ v, f none = .ok v :=
        fun hlast hnone => absurd ⟨hlast, hnone⟩ habsent
      rw [run_named (editAt_local f) (fun _ _ _ _ => trivial) hok.child hok.apart,
        run_known (r := fun c => (matchParts segments c).foldlM (editAt f) c) fun e he c' => ih (hbelow e he) c',
        put_named hstep]
      refine and_congr_left fun _ => ?_
      constructor
      · intro hall
        refine ⟨hvacuous, fun c hc => ?_⟩
        obtain ⟨e, he, rfl⟩ := (hok.matched c).1 hc
        exact hall e he
      · rintro ⟨-, hall⟩ e he
        exact hall e.2 ((hok.matched e.2).2 ⟨e, he, rfl⟩)

/-! ## Deletions -/

/-- A deletion at a place. -/
def deleteAt : Act := fun d ps => some (delete d ps)

theorem deleteAt_local : Local deleteAt fun ps => ps ≠ [] := by
  intro d p s c ps hne hs hchild
  cases ps with
  | nil => exact absurd rfl hne
  | cons => exact congrArg some (delete_child hs hchild)

/-- Every other element: what is left of a list whose places are deleted from the first on. -/
def survivors {α : Type} : List α → List α
  | [] => []
  | [_] => []
  | _ :: b :: l => b :: survivors l

/-- The elements that come later move up, so every other one is passed over. -/
theorem erase_survivors {α : Type} (l : List α) : ∀ (kept : List α) (n : ℕ), l.length ≤ n →
    (range' kept.length n).foldl eraseIdx (kept ++ l) = kept ++ survivors l := by
  have hidle : ∀ (n : ℕ) (kept : List α) (i : ℕ), kept.length ≤ i → (range' i n).foldl eraseIdx kept = kept := by
    intro n
    induction n with
    | zero => exact fun _ _ _ => rfl
    | succ _ ih =>
      intro kept i hle
      rw [range'_succ, foldl_cons, eraseIdx_of_length_le hle]
      exact ih kept (i + 1) (by omega)
  induction l using survivors.induct with
  | case1 =>
    intro kept n _
    rw [append_nil, survivors, append_nil]
    exact hidle n kept kept.length (Nat.le_refl _)
  | case2 =>
    intro kept n hn
    obtain ⟨m, rfl⟩ : ∃ m, n = m + 1 := ⟨n - 1, by simp only [length_singleton] at hn; omega⟩
    rw [range'_succ, foldl_cons, eraseIdx_append_of_length_le (Nat.le_refl _), Nat.sub_self,
      eraseIdx_cons_zero, survivors, append_nil]
    exact hidle m kept (kept.length + 1) (by omega)
  | case3 _ b _ ih =>
    intro kept n hn
    simp only [length_cons] at hn
    obtain ⟨m, rfl⟩ : ∃ m, n = m + 1 := ⟨n - 1, by omega⟩
    rw [range'_succ, foldl_cons, eraseIdx_append_of_length_le (Nat.le_refl _), Nat.sub_self, eraseIdx_cons_zero]
    -- the next deletion is behind `b`
    have hnext := ih (kept ++ [b]) m (by omega)
    rw [length_append, length_singleton, append_assoc, append_assoc] at hnext
    exact hnext

/-- What the code leaves of a container behind the last segment. -/
def dropLeft (segment : String) (d : Json) : Json :=
  if segment = "*" then
    match d with
    | arr items => arr (survivors items)
    | d => dropMatched "*" d
  else dropMatched segment d

/-- What the code leaves of a document. -/
def deleteLeft : List String → Json → Json
  | [], d => d
  | [segment], d => dropLeft segment d
  | segment :: segments, d => if segment = "" then d else mapMatched segment (deleteLeft segments) d

theorem foldlM_delete (pss : List (List String)) (d : Json) : pss.foldlM deleteAt d = some (pss.foldl delete d) := by
  induction pss generalizing d with
  | nil => rfl
  | cons ps _ ih => exact ih (delete d ps)

theorem dropField_keys : ∀ {ks : List String} {fields : JsonObject}, (fields.map Prod.fst).Nodup →
    ks.foldl (fun d k => delete d [k]) (obj fields) = obj (fields.filter fun field => field.1 ∉ ks) := by
  intro ks
  induction ks with
  | nil =>
    intro fields _
    simp
  | cons k _ ih =>
    intro fields hnodup
    have hdrop : ∀ {fields : JsonObject}, (fields.map Prod.fst).Nodup →
        dropField k fields = fields.filter fun field => field.1 ≠ k := by
      intro fields
      induction fields with
      | nil => exact fun _ => rfl
      | cons field _ ih' =>
        intro hnodup
        obtain ⟨k', v'⟩ := field
        rw [map_cons, nodup_cons] at hnodup
        rw [dropField]
        by_cases hk : k = k'
        · subst hk
          rw [if_pos rfl, filter_cons_of_neg (by simp)]
          refine (filter_eq_self.2 fun field hfield => ?_).symm
          have hne : field.1 ≠ k := fun heq => hnodup.1 (mem_map.2 ⟨field, hfield, heq⟩)
          exact decide_eq_true hne
        · rw [if_neg hk, filter_cons_of_pos (by simpa using Ne.symm hk), ih' hnodup.2]
    have hdelete : delete (obj fields) [k] = obj (fields.filter fun field => field.1 ≠ k) := by
      rw [delete_one (rfl : slot (obj fields) k = some (.key k))]
      exact congrArg obj (hdrop hnodup)
    rw [foldl_cons, hdelete, ih (hnodup.sublist (filter_sublist.map _)), filter_filter]
    refine congrArg obj (filter_congr fun field _ => ?_)
    simp [Bool.and_comm]

theorem deleteAt_last (hclean : Clean [segment] d) :
    (matchParts [segment] d).foldl delete d = dropLeft segment d := by
  rw [matchParts]
  by_cases hempty : segment = ""
  · subst hempty
    rfl
  have hstep : cleanStep segment d = true := (hclean.resolve_left hempty).1
  rw [if_neg hempty]
  by_cases habsent : absentField segment d = true
  · obtain ⟨hstar, -, hs, hnone, -, -⟩ := absent_plain hclean hempty habsent
    rw [if_pos ⟨rfl, habsent⟩]
    unfold dropLeft dropMatched
    rw [if_neg hstar, if_neg hempty, if_neg hstar, hs]
    exact delete_one hs
  · rw [if_neg fun h => habsent h.2]
    have hparts : ((named segment d).flatMap fun e => (matchParts [] e.2).map (e.1 :: ·)) =
        (named segment d).map fun e => [e.1] := by
      rw [← flatMap_pure_eq_map]
      rfl
    rw [hparts, foldl_map]
    by_cases hstar : segment = "*"
    · subst hstar
      cases d with
      | obj fields =>
        unfold cleanStep at hstep
        simp only [if_true, Bool.and_eq_true, decide_eq_true_eq] at hstep
        show ((sortedKeys fields).map fun key => (key, (fields.lookup key).getD null)).foldl _ (obj fields) = obj []
        rw [foldl_map, dropField_keys hstep.1]
        refine congrArg obj (filter_eq_nil_iff.2 fun field hfield => ?_)
        simpa using mem_sortedKeys.2 (mem_map_of_mem hfield)
      | arr items =>
        show ((range items.length).map fun i => (indexPart i, items[i]?.getD null)).foldl _ (arr items) =
          arr (survivors items)
        have hfold : ∀ (is : List ℕ) (items : List Json),
            is.foldl (fun d i => delete d [indexPart i]) (arr items) = arr (is.foldl eraseIdx items) := by
          intro is
          induction is with
          | nil => exact fun _ => rfl
          | cons i _ ih =>
            intro items
            rw [foldl_cons, foldl_cons, delete_one (slot_index items i)]
            exact ih (items.eraseIdx i)
        rw [foldl_map, hfold, range_eq_range']
        exact congrArg arr (erase_survivors items [] items.length (Nat.le_refl _))
      | null | bool | num | str => rfl
    · unfold named dropLeft dropMatched
      rw [if_neg hstar, if_neg hstar, if_neg hempty, if_neg hstar]
      cases hs : slot d segment with
      | none => rfl
      | some s =>
        cases hc : childAt d s with
        | none =>
          show ((toList (childAt d s)).map _).foldl _ d = dropChild d s
          rw [hc, dropChild_absent hc]
          rfl
        | some =>
          show ((toList (childAt d s)).map _).foldl _ d = dropChild d s
          rw [hc]
          exact delete_one hs

/-- Working off the matched places leaves every other element of the lists under a last `*`. -/
theorem delete_run : ∀ {segments : List String} {d : Json}, Clean segments d → segments ≠ [] →
    (matchParts segments d).foldlM deleteAt d = some (deleteLeft segments d) := by
  intro segments
  induction segments with
  | nil =>
    intro d _ hne
    exact absurd rfl hne
  | cons segment segments ih =>
    intro d hclean _
    cases segments with
    | nil =>
      rw [foldlM_delete, deleteAt_last hclean]
      rfl
    | cons segment' segments =>
      have hleft : deleteLeft (segment :: segment' :: segments) d =
          if segment = "" then d else mapMatched segment (deleteLeft (segment' :: segments)) d := rfl
      rw [matchParts, hleft]
      by_cases hempty : segment = ""
      · rw [if_pos hempty, if_pos hempty]
        rfl
      · obtain ⟨hok, hbelow⟩ := clean_named hclean hempty
        have hstep : cleanStep segment d = true := (hclean.resolve_left hempty).1
        rw [if_neg hempty, if_neg hempty, if_neg (by simp)]
        have hnonempty : ∀ e ∈ named segment d, ∀ ps ∈ matchParts (segment' :: segments) e.2, ps ≠ [] := by
          rintro e he ps hps rfl
          have hlength := (matchParts_plain (hbelow e he) [] hps).1
          simp at hlength
        rw [run_named deleteAt_local hnonempty hok.child hok.apart]
        have hrun : ∀ e ∈ named segment d, ∀ c', (matchParts (segment' :: segments) e.2).foldlM deleteAt e.2 = some c' ↔
            True ∧ c' = deleteLeft (segment' :: segments) e.2 := by
          intro e he c'
          rw [ih (hbelow e he) (by simp), some.injEq, true_and]
          exact eq_comm
        rw [run_known (r := fun c => (matchParts (segment' :: segments) c).foldlM deleteAt c)
          (q := fun _ => True) (g := deleteLeft (segment' :: segments)) hrun]
        exact ⟨fun _ _ => trivial, (put_named hstep).symm⟩

/-! ## What is left over -/

theorem survivors_nil {α : Type} {l : List α} : survivors l = [] ↔ l.length ≤ 1 := by
  match l with
  | [] => simp [survivors]
  | [_] => simp [survivors]
  | _ :: _ :: _ => simp [survivors]

/-- Two changes of the matched children give the same document if they agree on the children. -/
theorem mapMatched_eq_iff {g g' : Json → Json} :
    mapMatched segment g d = mapMatched segment g' d ↔ ∀ c ∈ matchedChildren segment d, g c = g' c := by
  unfold mapMatched matchedChildren
  by_cases hstar : segment = "*"
  · rw [if_pos hstar, if_pos hstar, if_pos hstar]
    cases d with
    | obj fields =>
      show obj _ = obj _ ↔ ∀ c ∈ fields.map Prod.snd, g c = g' c
      rw [Json.obj.injEq, map_inj_left, forall_mem_map]
      refine forall₂_congr fun field _ => ?_
      rw [Prod.mk.injEq, and_iff_right rfl]
    | arr items =>
      show arr _ = arr _ ↔ ∀ c ∈ items, g c = g' c
      rw [Json.arr.injEq, map_inj_left]
    | null | bool | num | str => simp [mapChildren]
  · rw [if_neg hstar, if_neg hstar, if_neg hstar]
    cases hs : slot d segment with
    | none => simp
    | some s =>
      cases hc : childAt d s with
      | none => simp [hc]
      | some =>
        simp only [hc, map_some, getD_some, bind_some, toList_some, mem_singleton, forall_eq]
        constructor
        · intro heq
          have hchild := congrArg (fun x => childAt x s) heq
          simp only [childAt_putChild_self (fits_of_child hc)] at hchild
          exact some.inj hchild
        · intro heq
          rw [heq]

/-- Nothing is left over that should have been deleted exactly if the lists under a last `*` have one element at most. -/
theorem deleteLeft_eq_iff : ∀ {segments : List String} {d : Json},
    deleteLeft segments d = deleteMatched segments d ↔ SoleMatches segments d := by
  intro segments
  induction segments with
  | nil =>
    intro d
    exact ⟨fun _ => trivial, fun _ => rfl⟩
  | cons segment segments ih =>
    intro d
    cases segments with
    | nil =>
      show dropLeft segment d = dropMatched segment d ↔ (segment = "*" → ∀ items, d = arr items → items.length ≤ 1)
      unfold dropLeft
      by_cases hstar : segment = "*"
      · subst hstar
        rw [if_pos rfl, forall_prop_of_true rfl]
        cases d with
        | arr items =>
          show arr (survivors items) = arr [] ↔ _
          rw [Json.arr.injEq, survivors_nil]
          constructor
          · rintro hle _ heq
            cases heq
            exact hle
          · intro hall
            exact hall items rfl
        | obj | null | bool | num | str =>
          refine iff_of_true rfl fun items heq => ?_
          cases heq
      · rw [if_neg hstar]
        exact iff_of_true rfl fun heq => absurd heq hstar
    | cons segment' segments =>
      show (if segment = "" then d else mapMatched segment (deleteLeft (segment' :: segments)) d) =
        (if segment = "" then d else mapMatched segment (deleteMatched (segment' :: segments)) d) ↔
          (segment = "" ∨ ∀ c ∈ matchedChildren segment d, SoleMatches (segment' :: segments) c)
      by_cases hempty : segment = ""
      · rw [if_pos hempty, if_pos hempty]
        exact iff_of_true rfl (Or.inl hempty)
      · rw [if_neg hempty, if_neg hempty, or_iff_right hempty, mapMatched_eq_iff]
        exact forall₂_congr fun c _ => ih

/-! ## The operations -/

theorem foldlM_texts {ε : Type} {step : Json → List Char → Except ε Json} {act : Act} :
    ∀ {pss : List (List String)} {d d' : Json},
      (∀ ps ∈ pss, ∀ d d', step d (pathText ps) = .ok d' ↔ act d ps = some d') →
        ((pss.map pathText).foldlM step d = .ok d' ↔ pss.foldlM act d = some d') := by
  intro pss
  induction pss with
  | nil =>
    intro d d' _
    constructor
    · intro h
      cases h
      rfl
    · intro h
      cases h
      rfl
  | cons ps _ ih =>
    intro d d' hstep
    have htail := fun d => @ih d d' fun qs hqs => hstep qs (mem_cons_of_mem ps hqs)
    rw [map_cons, foldlM_cons, foldlM_cons, Except.bind_eq_ok]
    constructor
    · rintro ⟨mid, hmid, h⟩
      exact bind_eq_some_iff.2 ⟨mid, (hstep ps mem_cons_self d mid).1 hmid, (htail mid).1 h⟩
    · intro h
      obtain ⟨mid, hmid, h⟩ := bind_eq_some_iff.1 h
      exact ⟨mid, (hstep ps mem_cons_self d mid).2 hmid, (htail mid).2 h⟩

theorem editValue_text (ht : t.Plain) (hne : parts ≠ []) (hplain : ∀ p ∈ parts, plainPart p = true) (d d' : Json) :
    editValue t f d (pathText parts) = .ok d' ↔ editAt f d parts = some d' := by
  have hpath := plainPath_pathText hne hplain
  unfold editValue editAt
  rw [ht.get hpath]
  cases f (at? d parts) with
  | error =>
    constructor
    · intro h
      cases h
    · intro h
      cases h
  | ok v? =>
    cases v? with
    | none =>
      constructor
      · intro h
        cases h
        rfl
      · intro h
        cases h
        rfl
    | some v => exact ht.set hpath d v d'

theorem deleteValue_text (ht : t.Plain) (hne : parts ≠ []) (hplain : ∀ p ∈ parts, plainPart p = true) (d d' : Json) :
    deleteValue t d (pathText parts) = .ok d' ↔ deleteAt d parts = some d' := by
  have hpath := plainPath_pathText hne hplain
  have hdelete : deleteValue t d (pathText parts) = .ok (delete d parts) := by
    unfold deleteValue
    rw [if_neg (pathText_not_blank hne hplain)]
    exact ht.delete hpath d
  rw [hdelete]
  unfold deleteAt
  rw [Except.ok.injEq, some.injEq]

/-- A matched place of a path has a part. -/
theorem matched_ne {path : List Char} (hclean : Clean ((pathSegments path).map trimSpace) d) {ps : List String}
    (hps : ps ∈ matchParts ((pathSegments path).map trimSpace) d) : ps ≠ [] := by
  rintro rfl
  have hlength := (matchParts_plain hclean [] hps).1
  rw [length_nil, length_map] at hlength
  exact pathSegments_ne path (length_eq_zero_iff.1 hlength.symm)

/-- The texts of an operation are those of the matched places. -/
theorem resolve_eq {path : List Char} (hstar : '*' ∈ path) (hclean : Clean ((pathSegments path).map trimSpace) d) :
    resolveOperationPaths d path = (matchParts ((pathSegments path).map trimSpace) d).map pathText := by
  unfold resolveOperationPaths
  rw [if_pos hstar, collect_eq hclean]
  refine uniq_of_nodup ((matchParts_nodup hclean).map_on fun ps hps qs hqs heq => ?_)
  have hread : ∀ rs ∈ matchParts ((pathSegments path).map trimSpace) d, plainPath (pathText rs) = some rs :=
    fun rs hrs => plainPath_pathText (matched_ne hclean hrs) (matchParts_plain hclean rs hrs).2
  replace heq : pathText ps = pathText qs := heq
  have hps' := hread ps hps
  rw [heq, hread qs hqs] at hps'
  exact (some.inj hps').symm

/-- The segments of an operation's path, as the code takes them. -/
def operationSegments (t : Sjson) (data : Json) (op : ParamOperation) : List String :=
  (pathSegments (processNegativeIndex t.gjson data op.path)).map trimSpace

theorem operationSegments_ne (t : Sjson) (data : Json) (op : ParamOperation) : operationSegments t data op ≠ [] := by
  intro hnil
  exact pathSegments_ne _ (map_eq_nil_iff.1 hnil)

/-- At a path with wildcards, an editing mode edits every matched place and no other, or fails because the edit does;
and a deletion deletes every matched place and no other exactly if no last `*` meets a list of two elements. -/
theorem wildcard_exact (t : Sjson) (tools : OverrideTools) (op : ParamOperation) (data : Json) (ht : t.Plain)
    (hconditions : op.conditions data = .ok true) (hstar : '*' ∈ processNegativeIndex t.gjson data op.path)
    (hclean : Clean (operationSegments t data op) data) :
    (∀ mode, op.mode = .edit mode → ∀ result, applyOperations t tools [op] data = .ok result ↔
      EditsOk (editOf tools op mode) (operationSegments t data op) data ∧
        result = editMatched (editOf tools op mode) (operationSegments t data op) data) ∧
    (op.mode = .delete → (applyOperations t tools [op] data = .ok (deleteMatched (operationSegments t data op) data) ↔
      SoleMatches (operationSegments t data op) data)) := by
  have happly : applyOperations t tools [op] data = applyOperation t tools data op := by
    unfold applyOperations
    rw [foldlM_cons, hconditions]
    show (applyOperation t tools data op >>= fun x => Except.ok x) = _
    cases applyOperation t tools data op <;> rfl
  rw [happly]
  unfold applyOperation
  rw [resolve_eq hstar hclean]
  refine ⟨fun mode hmode result => ?_, fun hmode => ?_⟩
  · rw [hmode, ← edit_run (editOf tools op mode) hclean result]
    exact foldlM_texts fun ps hps d d' =>
      editValue_text ht (matched_ne hclean hps) (matchParts_plain hclean ps hps).2 d d'
  · rw [hmode]
    have hne : operationSegments t data op ≠ [] := operationSegments_ne t data op
    refine (foldlM_texts fun ps hps d d' =>
      deleteValue_text ht (matched_ne hclean hps) (matchParts_plain hclean ps hps).2 d d').trans ?_
    have hrun := delete_run hclean hne
    unfold operationSegments at hrun
    rw [hrun, some.injEq]
    exact deleteLeft_eq_iff

/-- Tools for modes that need none. -/
def noTools : OverrideTools where
  value := id
  sprint _ := ""
  toLower := id
  toUpper := id
  replaceAll s _ _ := s
  regexReplace s _ _ := .ok s
  prune _ := .ok .ok

def threeItems : Json := obj [("l", arr [num "1", num "2", num "3"])]

def setAll (path : String) : ParamOperation where
  mode := .edit .set
  path := path.toList
  value := num "0"

def deleteAll (path : String) : ParamOperation where
  mode := .delete
  path := path.toList

theorem wildcard_exact_list :
    applyOperations plainSjson noTools [setAll "l.*"] threeItems = .ok (obj [("l", arr [num "0", num "0", num "0"])]) :=
  ((wildcard_exact plainSjson noTools (setAll "l.*") threeItems plainSjson_plain rfl (by decide +kernel)
    (Or.inr ⟨by decide +kernel, fun c hc => by
      rw [mem_singleton.1 (show c ∈ [arr [num "1", num "2", num "3"]] from hc)]
      exact Or.inr ⟨by decide +kernel, fun _ _ => trivial⟩⟩)).1 .set rfl _).2
    ⟨Or.inr ⟨nofun, fun c hc => by
      rw [mem_singleton.1 (show c ∈ [arr [num "1", num "2", num "3"]] from hc)]
      exact Or.inr ⟨fun _ h => (nomatch h), fun _ _ => ⟨some (num "0"), rfl⟩⟩⟩, rfl⟩

/-- Of three elements the second is left, and a key with a dot is read as two. -/
theorem wildcard_wrong :
    applyOperations plainSjson noTools [deleteAll "l.*"] threeItems = .ok (obj [("l", arr [num "2"])]) ∧
      deleteMatched (operationSegments plainSjson threeItems (deleteAll "l.*")) threeItems = obj [("l", arr [])] ∧
      applyOperations plainSjson noTools [setAll "o.*"] (obj [("o", obj [("a.b", num "1")])]) =
        .ok (obj [("o", obj [("a.b", num "1"), ("a", obj [("b", num "0")])])]) ∧
      editMatched (editOf noTools (setAll "o.*") .set)
        (operationSegments plainSjson (obj [("o", obj [("a.b", num "1")])]) (setAll "o.*"))
        (obj [("o", obj [("a.b", num "1")])]) = obj [("o", obj [("a.b", num "0")])] :=
  ⟨rfl, rfl, rfl, rfl⟩

end NovaMaas.Override
