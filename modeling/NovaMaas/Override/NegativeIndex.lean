/-
  Negative indexes in the paths of parameter overrides (relay/common/override.go).

  `processNegativeIndex` writes `a.-1` as `a.4` if there are five elements under `a`.  It finds the index texts by a
  regular expression, the array of each by cutting the path at the FIRST place of the index text, and the place to write
  at by looking for the first place of the text in what it has written so far.  The path it returns has every index counted
  from the end of the array that the rewritten path before it leads to, if each index text has its first place in its own
  segment, and nothing before that is resolved (`process_own`).

  Paths are lists of characters; gjson is a parameter.
-/
import NovaMaas.Lib.JsonTree
import NovaMaas.Lib.Segments

open List

namespace NovaMaas.Override

/-- What gjson reads: the value at a path, and the elements of an array. -/
structure Gjson (J : Type) where
  getBytes : J → List Char → Option J
  array    : J → Option (List J)

variable {J : Type}

/-- The length of the array at a path. -/
def Gjson.arrayLength (g : Gjson J) (data : J) (path : List Char) : Option ℕ :=
  ((g.getBytes data path).bind g.array).map length

/-! ## The code -/

/-- `-\d+`, at the beginning. -/
def indexText : List Char → Option (List Char)
  | '-' :: rest => if rest.takeWhile Char.isDigit = [] then none else some ('-' :: rest.takeWhile Char.isDigit)
  | _ => none

/-- What `\.(-\d+)` captures, from left to right: no match holds the dot that another begins with. -/
def negativeIndexes : List Char → List (List Char)
  | [] => []
  | c :: rest =>
    if c = '.' then
      match indexText rest with
      | some t => t :: negativeIndexes rest
      | none => negativeIndexes rest
    else negativeIndexes rest

/-- `strconv.Atoi` of an index text.  What does not fit is far below every length, as it is here. -/
def atoi (t : List Char) : ℤ := -(Nat.ofDigitChars 10 (t.drop 1) 0 : ℤ)

def itoa (n : ℕ) : List Char := Nat.toDigits 10 n

/-- `strings.Split(path, negIndex)[0]` without the dot it ends with. -/
def arrayPath (path t : List Char) : List Char :=
  let before := ((cutList t path).map Prod.fst).getD path
  if before.getLast? = some '.' then before.dropLast else before

/-- The index an index text stands for in an array, if it is in it. -/
def actualIndex (t : List Char) (length : ℕ) : Option ℕ :=
  if 0 ≤ length + atoi t ∧ length + atoi t < length then some (length + atoi t).toNat else none

/-- What the code makes of an index text. -/
def codeIndex (g : Gjson J) (data : J) (path t : List Char) : Option ℕ :=
  (g.arrayLength data (arrayPath path t)).bind (actualIndex t)

def replaceIndex (g : Gjson J) (data : J) (path : List Char) (result t : List Char) : List Char :=
  match codeIndex g data path t with
  | none => result
  | some i => replaceFirstList ('.' :: t) ('.' :: itoa i) result

def processNegativeIndex (g : Gjson J) (data : J) (path : List Char) : List Char :=
  (negativeIndexes path).foldl (replaceIndex g data path) path

/-! ## What is wanted -/

/-- The text of a path. -/
def joinPath : List (List Char) → List Char
  | [] => []
  | s :: ts => s ++ joinTail '.' ts

/-- The array that a path leads to, by its segments; no segments lead to the document itself. -/
def lengthAt (g : Gjson J) (data : J) : List (List Char) → Option ℕ
  | [] => (g.array data).map length
  | s :: ts => g.arrayLength data (joinPath (s :: ts))

/-- The number `k` of an index text `-k`. -/
def indexNumber (t : List Char) : ℕ := Nat.ofDigitChars 10 (t.drop 1) 0

/-- The element that is the `k`th from the end, if there are as many. -/
def fromEnd (k length : ℕ) : Option ℕ := if 1 ≤ k ∧ k ≤ length then some (length - k) else none

/-- The element that an index text names behind the segments `reached`. -/
def namedElement (g : Gjson J) (data : J) (reached : List (List Char)) (t : List Char) : Option ℕ :=
  (lengthAt g data reached).bind (fromEnd (indexNumber t))

/-- The index that the segment `-k` stands for behind the segments `reached`. -/
def segmentIndex (g : Gjson J) (data : J) (reached : List (List Char)) (seg : List Char) : Option ℕ :=
  if indexText seg = some seg then namedElement g data reached seg else none

def resolveSegment (g : Gjson J) (data : J) (reached : List (List Char)) (seg : List Char) : List Char :=
  ((segmentIndex g data reached seg).map itoa).getD seg

/-- Every segment in turn, behind what has been made of those before it. -/
def resolveFrom (g : Gjson J) (data : J) : List (List Char) → List (List Char) → List (List Char)
  | _, [] => []
  | reached, seg :: rest =>
    resolveSegment g data reached seg :: resolveFrom g data (reached ++ [resolveSegment g data reached seg]) rest

/-- The path with every negative index counted from the end of its array. -/
def resolveNegative (g : Gjson J) (data : J) (path : List Char) : List Char :=
  joinPath (resolveFrom g data [] (splitList '.' path))

/-- Behind the segments `before`, none of which is resolved: the index text that a segment begins with does not stand
before it already, and a segment that goes on behind its index text names no element.  Where one is resolved, no other
begins with an index text behind it. -/
def OwnPlaces (g : Gjson J) (data : J) : List (List Char) → List (List Char) → Prop
  | _, [] => True
  | before, seg :: rest =>
    (∀ t ∈ indexText seg, ¬ t <:+: joinPath before ∧ (t = seg ∨ namedElement g data before t = none)) ∧
      (segmentIndex g data before seg = none ∨ ∀ u ∈ rest, indexText u = none) ∧ OwnPlaces g data (before ++ [seg]) rest

/-- The first segment is no index of the document itself, and those behind it have their own places. -/
def PlacedOwn (g : Gjson J) (data : J) (path : List Char) : Prop :=
  match splitList '.' path with
  | [] => True
  | seg :: rest => segmentIndex g data [] seg = none ∧ OwnPlaces g data [seg] rest

/-! ## Index texts -/

theorem indexText_dash (rest : List Char) : indexText ('-' :: rest) =
      if rest.takeWhile Char.isDigit = [] then none else some ('-' :: rest.takeWhile Char.isDigit) := rfl

theorem indexText_of_ne {c : Char} (hc : c ≠ '-') (rest : List Char) : indexText (c :: rest) = none := by
  unfold indexText
  split
  · rename_i heq
    exact absurd (cons.inj heq).1 hc
  · rfl

/-- A run is not lengthened by what does not begin with one. -/
theorem takeWhile_append_stop {p : Char → Bool} {w : List Char} (hw : w.head?.any p = false) (l : List Char) :
    (l ++ w).takeWhile p = l.takeWhile p := by
  induction l with
  | nil =>
    cases w with
    | nil => rfl
    | cons c =>
      have hc : p c = false := hw
      simp [hc]
  | cons c _ ih =>
    cases hc : p c with
    | true => simp [hc, ih]
    | false => simp [hc]

variable {s t : List Char}

theorem indexText_shape (h : indexText s = some t) :
    ∃ ds rest, s = '-' :: (ds ++ rest) ∧ t = '-' :: ds ∧ ds ≠ [] ∧ (∀ c ∈ ds, c.isDigit = true) ∧
      rest.head?.any Char.isDigit = false := by
  unfold indexText at h
  split at h
  · rename_i rest
    obtain ⟨hne, ht⟩ := Option.ite_none_left_eq_some.1 h
    refine ⟨rest.takeWhile Char.isDigit, rest.dropWhile Char.isDigit, ?_, (Option.some.inj ht).symm, hne, ?_, ?_⟩
    · rw [takeWhile_append_dropWhile]
    · intro c hc
      exact mem_takeWhile_imp hc
    · cases hdrop : rest.dropWhile Char.isDigit with
      | nil => rfl
      | cons c rest' =>
        have hne' : rest.dropWhile Char.isDigit ≠ [] := by
          rw [hdrop]
          exact cons_ne_nil c rest'
        have hnot := head_dropWhile_not Char.isDigit hne'
        simp only [hdrop, head_cons] at hnot
        exact hnot
  · cases h

theorem dot_not_digit : Char.isDigit '.' = false := by decide

theorem dot_not_mem_index (h : indexText s = some t) : '.' ∉ t := by
  obtain ⟨ds, -, -, rfl, -, hds, -⟩ := indexText_shape h
  intro hmem
  rcases mem_cons.1 hmem with hdash | hmem
  · exact absurd hdash (by decide)
  · have := hds '.' hmem
    rw [dot_not_digit] at this
    cases this

theorem index_prefix (h : indexText s = some t) : t <+: s := by
  obtain ⟨ds, rest, rfl, rfl, -, -, -⟩ := indexText_shape h
  rw [← cons_append]
  exact prefix_append _ rest

/-- The index text of a segment that an index text begins. -/
theorem index_of_prefix {s' : List Char} (h : indexText s' = some t) (hbegins : t <+: s) :
    ∃ t', indexText s = some t' ∧ t <+: t' := by
  obtain ⟨ds, -, -, rfl, hne, hds, -⟩ := indexText_shape h
  obtain ⟨rest, rfl⟩ := hbegins
  rw [cons_append]
  have htake : (ds ++ rest).takeWhile Char.isDigit = ds ++ rest.takeWhile Char.isDigit :=
    takeWhile_append_of_pos hds
  have hne' : (ds ++ rest).takeWhile Char.isDigit ≠ [] := by
    rw [htake]
    exact fun hnil => hne (append_eq_nil_iff.1 hnil).1
  refine ⟨'-' :: (ds ++ rest.takeWhile Char.isDigit), ?_, ?_⟩
  · rw [indexText_dash, if_neg hne', htake]
  · rw [← cons_append]
    exact prefix_append _ _

theorem index_ne_digits (h : indexText s = some t) (n : ℕ) (v : List Char) : s ≠ itoa n ++ v := by
  obtain ⟨ds, rest, rfl, -, -, -, -⟩ := indexText_shape h
  intro heq
  have hdigits : ∀ c ∈ itoa n, c.isDigit = true := fun c hc => Nat.isDigit_of_mem_toDigits (by decide) (by decide) hc
  unfold itoa at heq
  cases hn : Nat.toDigits 10 n with
  | nil => exact absurd hn Nat.toDigits_ne_nil
  | cons c =>
    have hc := hdigits c (by unfold itoa; rw [hn]; exact mem_cons_self)
    rw [hn, cons_append] at heq
    rw [← (cons.inj heq).1] at hc
    exact absurd hc (by decide)

theorem dot_not_mem_itoa (n : ℕ) : '.' ∉ itoa n := by
  intro hmem
  have := Nat.isDigit_of_mem_toDigits (by decide) (by decide) hmem
  rw [dot_not_digit] at this
  cases this

/-- What stands behind a segment does not lengthen its index text. -/
theorem indexText_append (t : List Char) (ts : List (List Char)) : indexText (t ++ joinTail '.' ts) = indexText t := by
  have hhead : (joinTail '.' ts).head?.any Char.isDigit = false := by
    cases ts with
    | nil => rfl
    | cons => exact dot_not_digit
  cases t with
  | nil =>
    cases ts with
    | nil => rfl
    | cons => exact indexText_of_ne (by decide) _
  | cons c =>
    rw [cons_append]
    by_cases hc : c = '-'
    · subst hc
      rw [indexText_dash, indexText_dash, takeWhile_append_stop hhead]
    · rw [indexText_of_ne hc, indexText_of_ne hc]

/-- What the expression finds in a path: the index texts that segments behind a dot begin with. -/
theorem negativeIndexes_free (hs : '.' ∉ s) (rest : List Char) :
    negativeIndexes (s ++ rest) = negativeIndexes rest := by
  induction s with
  | nil => rfl
  | cons c _ ih =>
    have hc : c ≠ '.' := fun heq => hs (heq ▸ mem_cons_self)
    rw [cons_append, negativeIndexes, if_neg hc, ih fun hmem => hs (mem_cons_of_mem c hmem)]

variable {ts : List (List Char)}

theorem negativeIndexes_tail (hts : ∀ t ∈ ts, '.' ∉ t) :
    negativeIndexes (joinTail '.' ts) = ts.filterMap indexText := by
  induction ts with
  | nil => rfl
  | cons t ts ih =>
    have hrest : negativeIndexes (t ++ joinTail '.' ts) = ts.filterMap indexText := by
      rw [negativeIndexes_free (hts t mem_cons_self), ih fun u hu => hts u (mem_cons_of_mem t hu)]
    rw [joinTail_cons, negativeIndexes, if_pos rfl, indexText_append, hrest, filterMap_cons]
    cases indexText t <;> rfl

theorem negativeIndexes_path (hs : '.' ∉ s) (hts : ∀ t ∈ ts, '.' ∉ t) :
    negativeIndexes (s ++ joinTail '.' ts) = ts.filterMap indexText := by
  rw [negativeIndexes_free hs, negativeIndexes_tail hts]

/-! ## Segment by segment -/

/-- What the code makes of a segment: the index text it begins with, if it begins with one, is written over. -/
def codeSegment (g : Gjson J) (data : J) (path seg : List Char) : List Char :=
  match indexText seg with
  | none => seg
  | some t =>
    match codeIndex g data path t with
    | none => seg
    | some i => itoa i ++ seg.drop t.length

/-- No index text goes on where a later one ends. -/
def Unmixed : List (List Char) → Prop :=
  List.Pairwise fun t t' => ¬ (t' <+: t ∧ t' ≠ t)

variable {g : Gjson J} {data : J} {path : List Char}

theorem dot_not_mem_codeSegment {seg : List Char} (hseg : '.' ∉ seg) : '.' ∉ codeSegment g data path seg := by
  unfold codeSegment
  split
  · exact hseg
  split
  · exact hseg
  · intro hmem
    rcases mem_append.1 hmem with hmem | hmem
    · exact dot_not_mem_itoa _ hmem
    · exact hseg (mem_of_mem_drop hmem)

/-- The loop, behind segments that no index text still to come begins. -/
theorem foldl_replaceIndex (hs : '.' ∉ s) :
    ∀ (ts done : List (List Char)), (∀ u ∈ done, '.' ∉ u) → (∀ t ∈ ts, '.' ∉ t) → Unmixed (ts.filterMap indexText) →
      (∀ u ∈ done, ∀ t ∈ ts.filterMap indexText, codeIndex g data path t ≠ none → ¬ t <+: u) →
      (ts.filterMap indexText).foldl (replaceIndex g data path) (s ++ joinTail '.' (done ++ ts)) =
        s ++ joinTail '.' (done ++ ts.map (codeSegment g data path)) := by
  intro ts
  induction ts with
  | nil =>
    intro done _ _ _ _
    rfl
  | cons seg ts ih =>
    intro done hdone hfree hunmixed hpassed
    have hseg : '.' ∉ seg := hfree seg mem_cons_self
    have hfree' : ∀ t ∈ ts, '.' ∉ t := fun t ht => hfree t (mem_cons_of_mem seg ht)
    -- the segment joins the ones that are done
    have next (seg' : List Char) (hcode : codeSegment g data path seg = seg') (hunmixed' : Unmixed (ts.filterMap indexText))
        (hpassed' : ∀ u ∈ done, ∀ t ∈ ts.filterMap indexText, codeIndex g data path t ≠ none → ¬ t <+: u)
        (hseg' : ∀ t ∈ ts.filterMap indexText, codeIndex g data path t ≠ none → ¬ t <+: seg') :
        (ts.filterMap indexText).foldl (replaceIndex g data path) (s ++ joinTail '.' (done ++ seg' :: ts)) =
          s ++ joinTail '.' (done ++ (seg :: ts).map (codeSegment g data path)) := by
      have hdone' : ∀ u ∈ done ++ [seg'], '.' ∉ u := by
        intro u hu
        rcases mem_append.1 hu with hu | hu
        · exact hdone u hu
        · rw [mem_singleton.1 hu, ← hcode]
          exact dot_not_mem_codeSegment hseg
      have hall : ∀ u ∈ done ++ [seg'], ∀ t ∈ ts.filterMap indexText, codeIndex g data path t ≠ none → ¬ t <+: u := by
        intro u hu
        rcases mem_append.1 hu with hu | hu
        · exact hpassed' u hu
        · rw [mem_singleton.1 hu]
          exact hseg'
      have hrest := ih (done ++ [seg']) hdone' hfree' hunmixed' hall
      rw [append_assoc, append_assoc] at hrest
      rw [map_cons, hcode]
      exact hrest
    cases hindex : indexText seg with
    | none =>
      rw [filterMap_cons, hindex] at hunmixed hpassed ⊢
      refine next seg ?_ hunmixed hpassed ?_
      · simp [codeSegment, hindex]
      · intro t ht _ hbegins
        obtain ⟨seg', -, hseg'⟩ := mem_filterMap.1 ht
        obtain ⟨t', ht', -⟩ := index_of_prefix hseg' hbegins
        rw [hindex] at ht'
        cases ht'
    | some t₀ =>
      rw [filterMap_cons, hindex] at hunmixed hpassed ⊢
      obtain ⟨hfirst, hunmixed'⟩ := pairwise_cons.1 hunmixed
      have hpassed' : ∀ u ∈ done, ∀ t ∈ ts.filterMap indexText, codeIndex g data path t ≠ none → ¬ t <+: u :=
        fun u hu t ht => hpassed u hu t (mem_cons_of_mem t₀ ht)
      show (ts.filterMap indexText).foldl (replaceIndex g data path)
        (replaceIndex g data path (s ++ joinTail '.' (done ++ seg :: ts)) t₀) = _
      cases hcode : codeIndex g data path t₀ with
      | none =>
        have hkept : replaceIndex g data path (s ++ joinTail '.' (done ++ seg :: ts)) t₀ =
            s ++ joinTail '.' (done ++ seg :: ts) := by simp [replaceIndex, hcode]
        rw [hkept]
        refine next seg ?_ hunmixed' hpassed' ?_
        · simp [codeSegment, hindex, hcode]
        · intro t ht hsome hbegins
          -- a later index text that begins this segment begins its index text, and is not the whole of it
          obtain ⟨seg', -, hseg'⟩ := mem_filterMap.1 ht
          obtain ⟨t', ht', hbegins'⟩ := index_of_prefix hseg' hbegins
          rw [hindex] at ht'
          cases ht'
          refine hfirst t ht ⟨hbegins', ?_⟩
          rintro rfl
          exact hsome hcode
      | some i =>
        obtain ⟨v, hv⟩ := index_prefix hindex
        have hpassed₀ : ∀ u ∈ done, ¬ t₀ <+: u := by
          intro u hu
          exact hpassed u hu t₀ mem_cons_self (by rw [hcode]; exact Option.some_ne_none i)
        have hwritten : replaceIndex g data path (s ++ joinTail '.' (done ++ seg :: ts)) t₀ =
            s ++ joinTail '.' (done ++ (itoa i ++ v) :: ts) := by
          simp only [replaceIndex, hcode]
          rw [← hv]
          exact replaceFirst_segment hs (dot_not_mem_index hindex) hdone hpassed₀
        rw [hwritten]
        refine next (itoa i ++ v) ?_ hunmixed' hpassed' ?_
        · simp only [codeSegment, hindex, hcode]
          rw [← hv, drop_left]
        · intro t ht _ hbegins
          obtain ⟨seg', -, hseg'⟩ := mem_filterMap.1 ht
          obtain ⟨t', ht', -⟩ := index_of_prefix hseg' hbegins
          exact index_ne_digits ht' i v rfl

/-- The code's path, as long as no index text goes on where a later one ends. -/
theorem process_segments (hs : '.' ∉ s) (hts : ∀ t ∈ ts, '.' ∉ t)
    (hunmixed : Unmixed (ts.filterMap indexText)) :
    processNegativeIndex g data (s ++ joinTail '.' ts) =
      s ++ joinTail '.' (ts.map (codeSegment g data (s ++ joinTail '.' ts))) := by
  unfold processNegativeIndex
  rw [negativeIndexes_path hs hts]
  exact foldl_replaceIndex hs ts [] (fun u hu => absurd hu not_mem_nil) hts hunmixed
    (fun u hu => absurd hu not_mem_nil)

/-! ## Own places -/

theorem actualIndex_eq (t : List Char) (length : ℕ) : actualIndex t length = fromEnd (indexNumber t) length := by
  unfold actualIndex fromEnd atoi
  show _ = if 1 ≤ indexNumber t ∧ indexNumber t ≤ length then some (length - indexNumber t) else none
  have hnumber : Nat.ofDigitChars 10 (t.drop 1) 0 = indexNumber t := rfl
  rw [hnumber]
  by_cases hk : 1 ≤ indexNumber t ∧ indexNumber t ≤ length
  · rw [if_pos hk, if_pos (by omega)]
    exact congrArg some (by omega)
  · rw [if_neg hk, if_neg (by omega)]

/-- A path is cut at an index text's own segment, if the text does not stand before it. -/
theorem cutList_own {v : List Char} (ht : '.' ∉ t) (hne : t ≠ []) {a : List Char} (ha : ¬ t <:+: a) :
    cutList t (a ++ '.' :: (t ++ v)) = some (a ++ ['.'], v) := by
  induction a with
  | nil =>
    have hnot : ¬ t <+: '.' :: (t ++ v) := by
      intro hbegins
      obtain ⟨c, t', rfl⟩ := exists_cons_of_ne_nil hne
      exact ht ((cons_prefix_cons.1 hbegins).1 ▸ mem_cons_self)
    rw [nil_append, cutList_cons_of_not hnot, cutList_here hne]
    rfl
  | cons c a ih =>
    have hnot : ¬ t <+: c :: (a ++ '.' :: (t ++ v)) := by
      intro hbegins
      have hhere : t <+: (c :: a) ++ joinTail '.' [t ++ v] := by
        rw [joinTail_cons, joinTail_nil, append_nil]
        exact hbegins
      exact ha (prefix_segment ht hhere).isInfix
    rw [cons_append, cutList_cons_of_not hnot, ih fun hin => ha (hin.trans (suffix_cons c a).isInfix)]
    rfl

/-- At its own place the code reads the index text off the array that the path before it leads to. -/
theorem codeIndex_own {seg : List Char} {before rest : List (List Char)} (hindex : indexText seg = some t)
    (hfirst : ¬ t <:+: joinPath (s :: before)) :
    codeIndex g data (s ++ joinTail '.' (before ++ seg :: rest)) t = namedElement g data (s :: before) t := by
  obtain ⟨v, rfl⟩ := index_prefix hindex
  have hne : t ≠ [] := by
    obtain ⟨ds, -, -, rfl, -⟩ := indexText_shape hindex
    exact cons_ne_nil _ _
  have hcut : cutList t (s ++ joinTail '.' (before ++ (t ++ v) :: rest)) =
      some ((s ++ joinTail '.' before) ++ ['.'], v ++ joinTail '.' rest) := by
    rw [joinTail_append, joinTail_cons, append_assoc t v, ← append_assoc s]
    exact cutList_own (dot_not_mem_index hindex) hne hfirst
  have hpath : arrayPath (s ++ joinTail '.' (before ++ (t ++ v) :: rest)) t = s ++ joinTail '.' before := by
    unfold arrayPath
    rw [hcut]
    simp
  unfold codeIndex namedElement
  rw [hpath]
  show (g.arrayLength data (s ++ joinTail '.' before)).bind _ = (g.arrayLength data (s ++ joinTail '.' before)).bind _
  exact congrArg _ (funext (actualIndex_eq t))

theorem infix_joinPath {u : List Char} {before : List (List Char)} (hu : u ∈ before) :
    u <:+: joinPath (s :: before) := by
  obtain ⟨us, ts, rfl⟩ := append_of_mem hu
  refine ⟨s ++ (joinTail '.' us ++ ['.']), joinTail '.' ts, ?_⟩
  show _ = s ++ joinTail '.' (us ++ u :: ts)
  simp

/-- No index text goes on where a later one ends, if all have their own places. -/
theorem unmixed_of_own : ∀ {rest before : List (List Char)}, OwnPlaces g data (s :: before) rest →
    Unmixed (rest.filterMap indexText) ∧
      ∀ u ∈ before, ∀ t ∈ rest.filterMap indexText, ¬ t <:+: u := by
  intro rest
  induction rest with
  | nil => exact fun _ => ⟨Pairwise.nil, fun u _ t ht => absurd ht not_mem_nil⟩
  | cons seg rest ih =>
    rintro before ⟨hown, -, hrest⟩
    obtain ⟨hunmixed, hpassed⟩ := @ih (before ++ [seg]) hrest
    have hbefore : ∀ u ∈ before, ∀ t ∈ rest.filterMap indexText, ¬ t <:+: u :=
      fun u hu => hpassed u (mem_append_left _ hu)
    rw [filterMap_cons]
    cases hindex : indexText seg with
    | none => exact ⟨hunmixed, hbefore⟩
    | some t =>
      obtain ⟨hfirst, -⟩ := hown t hindex
      refine ⟨pairwise_cons.2 ⟨?_, hunmixed⟩, ?_⟩
      · rintro t' ht' ⟨hbegins, -⟩
        have hin : t' <:+: seg := (hbegins.trans ( index_prefix hindex)).isInfix
        exact hpassed seg (mem_append_right _ (mem_singleton_self seg)) t' ht' hin
      · intro u hu t' ht'
        rcases mem_cons.1 ht' with rfl | ht'
        · exact fun hin => hfirst (hin.trans (infix_joinPath hu))
        · exact hbefore u hu t' ht'

theorem resolveFrom_free {segs : List (List Char)} (h : ∀ u ∈ segs, indexText u = none) :
    ∀ reached, resolveFrom g data reached segs = segs := by
  induction segs with
  | nil => exact fun _ => rfl
  | cons seg segs ih =>
    intro reached
    have hseg : resolveSegment g data reached seg = seg := by
      simp [resolveSegment, segmentIndex, h seg mem_cons_self]
    rw [resolveFrom, hseg, ih fun u hu => h u (mem_cons_of_mem seg hu)]

/-- The code makes of every segment what it stands for, as long as they have their own places. -/
theorem map_codeSegment_own : ∀ {rest before : List (List Char)},
    OwnPlaces g data (s :: before) rest →
      rest.map (codeSegment g data (s ++ joinTail '.' (before ++ rest))) = resolveFrom g data (s :: before) rest := by
  intro rest
  induction rest with
  | nil => exact fun _ => rfl
  | cons seg rest ih =>
    rintro before ⟨hown, hresolved, hrest⟩
    have hseg : codeSegment g data (s ++ joinTail '.' (before ++ seg :: rest)) seg =
        resolveSegment g data (s :: before) seg := by
      unfold codeSegment resolveSegment segmentIndex
      cases hindex : indexText seg with
      | none => simp
      | some t =>
        obtain ⟨hfirst, hwhole⟩ := hown t hindex
        simp only [codeIndex_own hindex hfirst]
        by_cases hsame : t = seg
        · subst hsame
          rw [if_pos rfl]
          cases namedElement g data (s :: before) t with
          | none => rfl
          | some i => simp
        · rw [if_neg fun heq => hsame (Option.some.inj heq), hwhole.resolve_left hsame]
          rfl
    rw [map_cons, resolveFrom, hseg]
    refine congrArg _ ?_
    rcases hresolved with hnone | hfree
    · have hkept : resolveSegment g data (s :: before) seg = seg := by simp [resolveSegment, hnone]
      have hnext := @ih (before ++ [seg]) hrest
      rw [append_assoc] at hnext
      rw [hkept]
      exact hnext
    · rw [resolveFrom_free hfree]
      refine (map_congr_left fun u hu => ?_).trans (map_id rest)
      simp [codeSegment, hfree u hu]

/-- **Negative indexes at their own places.**  The code counts every negative index from the end of its array, if each
index text has its first place in its own segment and nothing before it is resolved. -/
theorem process_own (g : Gjson J) (data : J) (path : List Char) (hown : PlacedOwn g data path) :
    processNegativeIndex g data path = resolveNegative g data path := by
  obtain ⟨s, ts, hsplit, hs, hts, rfl⟩ := @joined_of_split '.' path
  unfold PlacedOwn at hown
  rw [hsplit] at hown
  obtain ⟨hfirst, hplaces⟩ := hown
  have hkept : resolveSegment g data [] s = s := by simp [resolveSegment, hfirst]
  have hmap := map_codeSegment_own hplaces
  rw [process_segments hs hts (unmixed_of_own hplaces).1]
  unfold resolveNegative
  rw [hsplit, resolveFrom, hkept]
  show _ = s ++ joinTail '.' (resolveFrom g data [s] ts)
  exact congrArg (fun us => s ++ joinTail '.' us) hmap

/-! ## A list in a list -/

/-- Plain paths in a document. -/
def plainGjson : Gjson Json where
  getBytes data path := if path = [] then none else Json.at? data ((splitList '.' path).map String.ofList)
  array
    | .arr items => some items
    | _ => none

theorem process_own_last : processNegativeIndex plainGjson (.obj [("a", .arr [.null, .null])]) "a.-1.b".toList =
      resolveNegative plainGjson (.obj [("a", .arr [.null, .null])]) "a.-1.b".toList ∧
    resolveNegative plainGjson (.obj [("a", .arr [.null, .null])]) "a.-1.b".toList = "a.1.b".toList := by
  refine ⟨process_own plainGjson (.obj [("a", .arr [.null, .null])]) "a.-1.b".toList ?_, by decide +kernel⟩
  refine ⟨by decide +kernel, ⟨by decide +kernel, Or.inr (by decide +kernel), ?_⟩⟩
  exact ⟨by decide +kernel, Or.inl (by decide +kernel), trivial⟩

/-- Two rows, of three numbers each. -/
def twoRows : Json :=
  .obj [("a", .arr [.obj [("b", .arr [.num "1", .num "2", .num "3"])], .obj [("b", .arr [.num "4", .num "5", .num "6"])]])]

/-- The second index is counted from the end of the outer list. -/
theorem second_index : processNegativeIndex plainGjson twoRows "a.-1.b.-1".toList = "a.1.b.1".toList ∧
      resolveNegative plainGjson twoRows "a.-1.b.-1".toList = "a.1.b.2".toList := by
  decide +kernel

/-- Out of its own place an index is right by chance: here both lists have one length. -/
example : let doc := Json.obj [("a", .arr [.obj [("b", .arr [.null])]])]
    processNegativeIndex plainGjson doc "a.-1.b.-1".toList = resolveNegative plainGjson doc "a.-1.b.-1".toList := by
  decide +kernel

end NovaMaas.Override
