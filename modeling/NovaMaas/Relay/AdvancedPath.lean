/-
  The paths of an advanced custom channel.

  A configured path with a place for the model is split there, and a request has to begin with the one part and end with
  the other.  What is left must be a model name.  The two ends are tested on the same text: a request that is shorter
  than both together passes as well, with what follows the first part for its model (`Overlaps`).
-/
import Mathlib.Data.List.Infix
import NovaMaas.Lib.Segments

open Option hiding map_map or_self

open List

namespace NovaMaas.Relay

/-- `advancedCustomModelPlaceholder`. -/
def advancedCustomModelPlaceholder : List Char := ['\x7b', 'm', 'o', 'd', 'e', 'l', '\x7d']

def generateContent : List Char := ":generateContent".toList

def streamGenerateContent : List Char := ":streamGenerateContent".toList

/-- `strings.Split`, for `fuel` separators at most. -/
def splitText (sub : List Char) : ℕ → List Char → List (List Char)
  | 0, s => [s]
  | fuel + 1, s =>
    match cutList sub s with
    | none => [s]
    | some (before, behind) => before :: splitText sub fuel behind

/-- `strings.TrimSuffix(strings.TrimPrefix(s, start), ending)`. -/
def trimBoth (s start ending : List Char) : List Char :=
  let s := if start <+: s then s.drop start.length else s
  if ending <:+ s then s.take (s.length - ending.length) else s

def matchAdvancedCustomIncomingPathTemplate (configuredPath requestPath : List Char) : Bool :=
  if (cutList advancedCustomModelPlaceholder configuredPath).isNone then configuredPath == requestPath
  else
    match splitText advancedCustomModelPlaceholder configuredPath.length configuredPath with
    | [start, ending] =>
      if ¬ start <+: requestPath ∨ ¬ ending <:+ requestPath then false
      else
        let model := trimBoth requestPath start ending
        model ≠ [] ∧ '/' ∉ model
    | _ => false

/-- The configured path for streams. -/
def streamPath (configuredPath : List Char) : List Char :=
  replaceFirstList generateContent streamGenerateContent configuredPath

def matchAdvancedCustomIncomingPath (configuredPath requestPath : List Char) : Bool :=
  if matchAdvancedCustomIncomingPathTemplate configuredPath requestPath then true
  else if (cutList generateContent configuredPath).isSome then
    matchAdvancedCustomIncomingPathTemplate (streamPath configuredPath) requestPath
  else false

/-! ## What is meant -/

/-- The path with a model in its place. -/
def filledPath (path model : List Char) : List Char := replaceFirstList advancedCustomModelPlaceholder model path

/-- The path holds one place for a model, between these parts. -/
def PlaceBetween (path start ending : List Char) : Prop :=
  cutList advancedCustomModelPlaceholder path = some (start, ending) ∧
    cutList advancedCustomModelPlaceholder ending = none

/-- The request is the path, with a model name in its place. -/
def IsPathOf (path requestPath : List Char) : Prop :=
  ∃ model, model ≠ [] ∧ '/' ∉ model ∧ requestPath = filledPath path model

/-- The request is such a path, with its first `:generateContent` replaced. -/
def IsStreamPathOf (path requestPath : List Char) : Prop :=
  ∃ model, model ≠ [] ∧ '/' ∉ model ∧ requestPath = streamPath (filledPath path model)

/-- The parts overlap in the request. -/
def Overlaps (path requestPath : List Char) : Prop :=
  ∃ start ending rest, PlaceBetween path start ending ∧ requestPath = start ++ rest ∧ rest ≠ [] ∧ '/' ∉ rest ∧
    ending <:+ requestPath ∧ rest.length < ending.length

/-- The request names a model that brings a `:generateContent` before that of the path, so that it matters whether the
model is filled in first: the code replaces the path's own. -/
def Diverts (path requestPath : List Char) : Prop :=
  ∃ model, model ≠ [] ∧ '/' ∉ model ∧ streamPath (filledPath path model) ≠ filledPath (streamPath path) model ∧
    ((cutList generateContent path).isSome = true ∧ requestPath = filledPath (streamPath path) model ∨
      requestPath = streamPath (filledPath path model) ∧ ¬ IsPathOf path requestPath)

/-! ## One template -/

variable {path requestPath start ending : List Char}

theorem cutList_eq {sub s a b : List Char} (h : cutList sub s = some (a, b)) : s = a ++ sub ++ b := by
  induction s generalizing a with
  | nil =>
    rw [cutList, ite_none_right_eq_some] at h
    obtain ⟨rfl, h⟩ := h
    cases h
    rfl
  | cons c s ih =>
    rw [cutList] at h
    split at h
    · rename_i hbegin
      obtain ⟨t, ht⟩ := isPrefixOf_iff_prefix.1 hbegin
      cases h
      rw [← ht, drop_left]
      rfl
    · obtain ⟨⟨a', b'⟩, hcut, heq⟩ := map_eq_some_iff.1 h
      cases heq
      rw [ih hcut]
      rfl

theorem cutList_length {sub s : List Char} {ab : List Char × List Char} (h : cutList sub s = some ab) :
    s.length = ab.1.length + sub.length + ab.2.length := by
  rw [cutList_eq h, length_append, length_append]

theorem replace_place (h : PlaceBetween path start ending) (model : List Char) :
    filledPath path model = start ++ model ++ ending := by
  unfold filledPath replaceFirstList
  rw [h.1]

theorem splitText_place (h : PlaceBetween path start ending) :
    splitText advancedCustomModelPlaceholder path.length path = [start, ending] := by
  have hpath := cutList_eq h.1
  obtain ⟨n, hn⟩ : ∃ n, path.length = n + 1 := by
    refine Nat.exists_eq_add_one.2 ?_
    rw [hpath]
    simp [advancedCustomModelPlaceholder]
  rw [hn, splitText, h.1]
  cases n with
  | zero => rfl
  | succ n => simp only [splitText, h.2]

theorem trimBoth_append (start rest ending : List Char) : trimBoth (start ++ rest) start ending =
    if ending <:+ rest then rest.take (rest.length - ending.length) else rest := by
  unfold trimBoth
  rw [if_pos (prefix_append start rest), drop_left]

/-- A template lets through what it means, and what overlaps. -/
theorem template_iff (h : PlaceBetween path start ending) :
    matchAdvancedCustomIncomingPathTemplate path requestPath = true ↔
      IsPathOf path requestPath ∨ Overlaps path requestPath := by
  unfold matchAdvancedCustomIncomingPathTemplate
  rw [h.1, if_neg (by simp), splitText_place h]
  simp only
  constructor
  · intro hmatch
    split at hmatch
    · cases hmatch
    · rename_i hends
      obtain ⟨⟨rest, rfl⟩, hending⟩ : start <+: requestPath ∧ ending <:+ requestPath := by tauto
      rw [trimBoth_append] at hmatch
      by_cases hlong : ending.length ≤ rest.length
      · obtain ⟨model, rfl⟩ := suffix_of_suffix_length_le hending (suffix_append start rest) hlong
        rw [if_pos (suffix_append _ _), length_append, Nat.add_sub_cancel, take_left] at hmatch
        obtain ⟨hne, hslash⟩ := of_decide_eq_true hmatch
        refine Or.inl ⟨model, hne, hslash, ?_⟩
        rw [replace_place h, append_assoc]
      · rw [if_neg fun hs => hlong hs.length_le] at hmatch
        obtain ⟨hne, hslash⟩ := of_decide_eq_true hmatch
        exact Or.inr ⟨start, ending, rest, h, rfl, hne, hslash, hending, by omega⟩
  · rintro (⟨model, hne, hslash, rfl⟩ | ⟨s, e, rest, hse, rfl, hne, hslash, hsuffix, hshort⟩)
    · rw [replace_place h, append_assoc]
      have hends : ¬ (¬ start <+: start ++ (model ++ ending) ∨ ¬ ending <:+ start ++ (model ++ ending)) := by
        rw [not_or, not_not, not_not]
        exact ⟨prefix_append _ _, append_assoc start model ending ▸ suffix_append _ _⟩
      rw [if_neg hends, trimBoth_append, if_pos (suffix_append _ _), length_append, Nat.add_sub_cancel, take_left]
      exact decide_eq_true ⟨hne, hslash⟩
    · obtain ⟨rfl, rfl⟩ := Prod.mk.inj (some.inj (hse.1.symm.trans h.1))
      have hnot : ¬ e <:+ rest := fun hs => absurd hs.length_le (by omega)
      rw [if_neg (by rw [not_or, not_not, not_not]; exact ⟨prefix_append _ _, hsuffix⟩), trimBoth_append, if_neg hnot]
      exact decide_eq_true ⟨hne, hslash⟩

/-! ## The path for streams -/

/-- Behind a text that no place of `sub` runs out of. -/
theorem cutList_passing {sub w : List Char} (hpass : ∀ d u, sub <+: d :: (u ++ w) → sub <+: d :: u) (u : List Char) :
    cutList sub (u ++ w) = match cutList sub u with
      | some (p, q) => some (p, q ++ w)
      | none => (cutList sub w).map fun p => (u ++ p.1, p.2) := by
  by_cases hne : sub = []
  · subst hne
    cases u <;> cases w <;> rfl
  induction u with
  | nil =>
    rw [nil_append, cutList, if_neg hne]
    cases cutList sub w <;> rfl
  | cons d u ih =>
    by_cases hbegin : sub <+: d :: u
    · obtain ⟨t, ht⟩ := hbegin
      rw [← ht, append_assoc, cutList_here hne, cutList_here hne]
    · rw [cons_append, cutList_cons_of_not fun h => hbegin (hpass d u h), ih, cutList_cons_of_not hbegin]
      cases cutList sub u with
      | some p => rfl
      | none => simp [Option.map_map, Function.comp_def]

/-- The place of the model is found across a text with a colon in front, whatever the text. -/
theorem place_across {w t : List Char} (hw : w = ':' :: t) (ht : '\x7b' ∉ t) (u v : List Char) :
    cutList advancedCustomModelPlaceholder (u ++ w ++ v) = match cutList advancedCustomModelPlaceholder u with
      | some (p, q) => some (p, q ++ w ++ v)
      | none => (cutList advancedCustomModelPlaceholder v).map fun p => (u ++ w ++ p.1, p.2) := by
  subst hw
  have hpass (d : Char) (u : List Char) (h : advancedCustomModelPlaceholder <+: d :: (u ++ (':' :: t ++ v))) :
      advancedCustomModelPlaceholder <+: d :: u := by
    have hjoin : advancedCustomModelPlaceholder <+: (d :: u) ++ joinTail ':' [t ++ v] := by simpa [joinTail] using h
    exact prefix_segment (by decide) hjoin
  have hacross : cutList advancedCustomModelPlaceholder (':' :: t ++ v) =
      (cutList advancedCustomModelPlaceholder v).map fun p => (':' :: t ++ p.1, p.2) :=
    cutList_pass fun hmem => (mem_cons.1 hmem).elim (by decide) ht
  rw [append_assoc, cutList_passing hpass, hacross]
  cases cutList advancedCustomModelPlaceholder u with
  | some p => simp
  | none => simp [Option.map_map, Function.comp_def]

/-- The first `:generateContent` of a text in which one is seen: no two of them overlap. -/
theorem generate_first (u v : List Char) : cutList generateContent (u ++ generateContent ++ v) =
    match cutList generateContent u with
      | some (p, q) => some (p, q ++ generateContent ++ v)
      | none => some (u, v) := by
  obtain ⟨t, hw, ht⟩ : ∃ t, generateContent = ':' :: t ∧ ':' ∉ t := ⟨"generateContent".toList, rfl, by decide⟩
  rw [hw]
  have hpass (d : Char) (u : List Char) (h : (':' :: t) <+: d :: (u ++ (':' :: t ++ v))) : (':' :: t) <+: d :: u := by
    obtain ⟨hd, htail⟩ := cons_prefix_cons.1 h
    have hjoin : t <+: u ++ joinTail ':' [t ++ v] := by simpa [joinTail] using htail
    exact cons_prefix_cons.2 ⟨hd, prefix_segment ht hjoin⟩
  rw [append_assoc, cutList_passing hpass, cutList_here (cons_ne_nil _ _)]
  cases cutList (':' :: t) u with
  | some p => simp
  | none => simp

theorem generate_seen (u v : List Char) : (cutList generateContent (u ++ generateContent ++ v)).isSome = true := by
  rw [generate_first]
  cases cutList generateContent u <;> rfl

theorem streamPath_seen (u v : List Char) : streamPath (u ++ generateContent ++ v) =
    match cutList generateContent u with
      | some (p, q) => p ++ streamGenerateContent ++ (q ++ generateContent ++ v)
      | none => u ++ streamGenerateContent ++ v := by
  unfold streamPath replaceFirstList
  rw [generate_first]
  cases cutList generateContent u <;> rfl

/-- Nothing is seen before the first place. -/
theorem none_before {x y : List Char} (hcut : cutList generateContent (x ++ generateContent ++ y) = some (x, y)) :
    cutList generateContent x = none := by
  rw [generate_first] at hcut
  cases hx : cutList generateContent x with
  | none => rfl
  | some pq =>
    have hlength := cutList_length hx
    rw [hx] at hcut
    simp only [some.injEq, Prod.mk.injEq] at hcut
    rw [hcut.1] at hlength
    have hpos : 0 < generateContent.length := by decide
    omega

/-- The replaced text stands behind the model's place, or in front of it.  In front of it, it is the first of the filled
path, too; behind it, it is, or the last of the filled path is left as it was. -/
theorem stream_place (h : PlaceBetween path start ending) (hgen : (cutList generateContent path).isSome = true) :
    ∃ start' ending', PlaceBetween (streamPath path) start' ending' ∧
      ((start' = start ∧ ∃ q y, ending = q ++ generateContent ++ y ∧ ending' = q ++ streamGenerateContent ++ y ∧
          ∀ model, streamPath (start ++ model ++ ending) = start ++ model ++ ending' ∨
            ∃ l, streamPath (start ++ model ++ ending) = l ++ generateContent ++ y) ∨
        (ending' = ending ∧ ∃ x z, start = x ++ generateContent ++ z ∧ start' = x ++ streamGenerateContent ++ z ∧
          ∀ model, streamPath (start ++ model ++ ending) = start' ++ model ++ ending)) := by
  obtain ⟨⟨x, y⟩, hcut⟩ := isSome_iff_exists.1 hgen
  obtain rfl : path = x ++ generateContent ++ y := cutList_eq hcut
  have hnone := none_before hcut
  have hold := place_across (w := generateContent) (t := "generateContent".toList) rfl (by decide)
  have hnew := place_across (w := streamGenerateContent) (t := "streamGenerateContent".toList) rfl (by decide)
  obtain ⟨hplace, hend⟩ := h
  unfold PlaceBetween
  rw [streamPath_seen, hnone, hnew]
  rw [hold] at hplace
  cases hx : cutList advancedCustomModelPlaceholder x with
  | some pq =>
    obtain ⟨p, q⟩ := pq
    rw [hx] at hplace
    cases hplace
    refine ⟨start, q ++ streamGenerateContent ++ y, ⟨rfl, ?_⟩, Or.inl ⟨rfl, q, y, rfl, rfl, fun model => ?_⟩⟩
    · have hend : cutList advancedCustomModelPlaceholder (q ++ generateContent ++ y) = none := hend
      rw [hold] at hend
      rw [hnew]
      cases hq : cutList advancedCustomModelPlaceholder q with
      | some p =>
        rw [hq] at hend
        cases hend
      | none =>
        rw [hq] at hend
        exact map_eq_none_iff.2 (map_eq_none_iff.1 hend)
    · have hseen := streamPath_seen (start ++ model ++ q) y
      simp only [append_assoc] at hseen ⊢
      rw [hseen]
      cases cutList generateContent (start ++ (model ++ q)) with
      | none => exact Or.inl (by simp)
      | some pq => exact Or.inr ⟨pq.1 ++ streamGenerateContent ++ pq.2, by simp⟩
  | none =>
    rw [hx] at hplace
    obtain ⟨⟨z, e⟩, hy, heq⟩ := map_eq_some_iff.1 hplace
    cases heq
    refine ⟨x ++ streamGenerateContent ++ z, e, ⟨?_, hend⟩, Or.inr ⟨rfl, x, z, rfl, rfl, fun model => ?_⟩⟩
    · rw [hy]
      rfl
    · have hseen := streamPath_seen x (z ++ model ++ e)
      rw [hnone] at hseen
      simpa using hseen

/-- Read from the end, one has a small g where the other has a large one. -/
theorem generate_ne_stream (l r : List Char) : l ++ generateContent ≠ r ++ streamGenerateContent := by
  intro hsame
  have hsame := congrArg (fun s => s.reverse[14]?) hsame
  simp only [reverse_append] at hsame
  rw [getElem?_append_left (by decide +kernel), getElem?_append_left (by decide +kernel)] at hsame
  revert hsame
  decide +kernel

/-- No request is of both forms: they differ at the place of the replaced text. -/
theorem not_both (h : PlaceBetween path start ending) (hgen : (cutList generateContent path).isSome = true)
    (hmatch : matchAdvancedCustomIncomingPathTemplate path requestPath = true) :
    ¬ matchAdvancedCustomIncomingPathTemplate (streamPath path) requestPath = true := by
  have hends : ∀ {p s e}, PlaceBetween p s e → matchAdvancedCustomIncomingPathTemplate p requestPath = true →
      s <+: requestPath ∧ e <:+ requestPath := by
    intro p s e hplace hm
    rcases (template_iff hplace).1 hm with ⟨model, -, -, rfl⟩ | ⟨s', e', rest, hplace', rfl, -, -, hsuffix, -⟩
    · rw [replace_place hplace]
      exact ⟨append_assoc s model e ▸ prefix_append _ _, suffix_append _ _⟩
    · obtain ⟨rfl, rfl⟩ := Prod.mk.inj (some.inj (hplace'.1.symm.trans hplace.1))
      exact ⟨prefix_append _ _, hsuffix⟩
  intro hstream
  obtain ⟨start', ending', hplace, hform⟩ := stream_place h hgen
  obtain ⟨⟨r, hr⟩, ⟨l, hl⟩⟩ := hends h hmatch
  obtain ⟨⟨r', hr'⟩, ⟨l', hl'⟩⟩ := hends hplace hstream
  rcases hform with ⟨-, q, y, rfl, rfl, -⟩ | ⟨-, x, z, rfl, rfl, -⟩
  · have hsame := hl.trans hl'.symm
    simp only [← append_assoc] at hsame
    exact generate_ne_stream _ _ (append_cancel_right hsame)
  · have hsame := hr.trans hr'.symm
    simp only [append_assoc] at hsame
    have hsame := congrArg (fun s => s[1]?) (append_cancel_left hsame)
    rw [getElem?_append_left (by decide +kernel), getElem?_append_left (by decide +kernel)] at hsame
    revert hsame
    decide +kernel

/-- A filled path whose first text is not the configured one gives no path that the code makes for streams. -/
theorem diverted_apart (h : PlaceBetween path start ending) (hgen : (cutList generateContent path).isSome = true)
    {model : List Char} (hne : streamPath (filledPath path model) ≠ filledPath (streamPath path) model)
    (model' : List Char) : streamPath (filledPath path model) ≠ filledPath (streamPath path) model' := by
  obtain ⟨start', ending', hplace, hform⟩ := stream_place h hgen
  rw [replace_place h, replace_place hplace] at hne ⊢
  rcases hform with ⟨rfl, q, y, -, rfl, hfilled⟩ | ⟨rfl, x, z, -, -, hfilled⟩
  · rcases hfilled model with hsame | ⟨l, hl⟩
    · exact absurd hsame hne
    · rw [hl]
      simp only [← append_assoc]
      exact fun hsame => generate_ne_stream _ _ (append_cancel_right hsame)
  · exact absurd (hfilled model) hne

/-! ## The two forms -/

theorem overlaps_not_path (h : Overlaps path requestPath) : ¬ IsPathOf path requestPath := by
  obtain ⟨s, e, rest, hplace, rfl, -, -, -, hshort⟩ := h
  rintro ⟨model, -, -, heq⟩
  rw [replace_place hplace] at heq
  have := congrArg length heq
  simp only [length_append] at this
  omega

theorem length_streamPath (path : List Char) : (streamPath path).length =
    path.length + if (cutList generateContent path).isSome = true then 6 else 0 := by
  unfold streamPath replaceFirstList
  cases hcut : cutList generateContent path with
  | none => simp
  | some pq =>
    have hold : generateContent.length = 16 := by decide
    have hnew : streamGenerateContent.length = 22 := by decide
    have hlength := cutList_length hcut
    simp only [length_append, Option.isSome_some, if_true]
    omega

/-- The request that a path of a stream is, by the code's path or by the filled one. -/
theorem stream_of_filled (h : IsStreamPathOf path requestPath) :
    IsPathOf path requestPath ∨ IsPathOf (streamPath path) requestPath ∨ Diverts path requestPath := by
  obtain ⟨model, hne, hslash, rfl⟩ := h
  by_cases hsame : streamPath (filledPath path model) = filledPath (streamPath path) model
  · exact Or.inr (Or.inl ⟨model, hne, hslash, hsame⟩)
  · by_cases hpath : IsPathOf path (streamPath (filledPath path model))
    · exact Or.inl hpath
    · exact Or.inr (Or.inr ⟨model, hne, hslash, hsame, Or.inr ⟨rfl, hpath⟩⟩)

theorem filled_of_stream (hgen : (cutList generateContent path).isSome = true)
    (h : IsPathOf (streamPath path) requestPath) : IsStreamPathOf path requestPath ∨ Diverts path requestPath := by
  obtain ⟨model, hne, hslash, rfl⟩ := h
  by_cases hsame : streamPath (filledPath path model) = filledPath (streamPath path) model
  · exact Or.inl ⟨model, hne, hslash, hsame.symm⟩
  · exact Or.inr ⟨model, hne, hslash, hsame, Or.inl ⟨hgen, rfl⟩⟩

/-- What overlaps, in the path or in the code's path for streams, is shorter than a filled path for streams. -/
theorem overlaps_not_stream (h : PlaceBetween path start ending) (hoverlap : Overlaps path requestPath ∨
    (cutList generateContent path).isSome = true ∧ Overlaps (streamPath path) requestPath) :
    ¬ IsStreamPathOf path requestPath := by
  rintro ⟨model, -, -, heq⟩
  have hlong := length_streamPath (filledPath path model)
  rw [← heq, replace_place h] at hlong
  simp only [length_append] at hlong
  rcases hoverlap with ⟨s, e, rest, hplace, rfl, -, -, -, hshort⟩ | ⟨hgen, s, e, rest, hplace, rfl, -, -, -, hshort⟩
  · obtain ⟨rfl, rfl⟩ := Prod.mk.inj (some.inj (hplace.1.symm.trans h.1))
    rw [length_append] at hlong
    omega
  · obtain ⟨start', ending', hplace', hform⟩ := stream_place h hgen
    obtain ⟨rfl, rfl⟩ := Prod.mk.inj (some.inj (hplace.1.symm.trans hplace'.1))
    have hold : generateContent.length = 16 := by decide
    have hnew : streamGenerateContent.length = 22 := by decide
    have hseen : (cutList generateContent (start ++ model ++ ending)).isSome = true := by
      rcases hform with ⟨-, q, y, rfl, -, -⟩ | ⟨-, x, z, rfl, -, -⟩
      · have hsees := generate_seen (start ++ model ++ q) y
        simpa only [append_assoc] using hsees
      · have hsees := generate_seen x (z ++ model ++ ending)
        simpa only [append_assoc] using hsees
    rw [if_pos hseen] at hlong
    rcases hform with ⟨rfl, q, y, rfl, rfl, -⟩ | ⟨rfl, x, z, rfl, rfl, -⟩
    · simp only [length_append] at hlong hshort
      omega
    · simp only [length_append] at hlong hshort
      omega

/-- Where the model brings a text of its own, code and form part. -/
theorem diverts_cases (h : PlaceBetween path start ending) (hdiverts : Diverts path requestPath) :
    ((cutList generateContent path).isSome = true ∧ IsPathOf (streamPath path) requestPath ∧
        ¬ IsStreamPathOf path requestPath) ∨
      (IsStreamPathOf path requestPath ∧ ¬ IsPathOf path requestPath ∧
        ((cutList generateContent path).isSome = true → ¬ IsPathOf (streamPath path) requestPath)) := by
  obtain ⟨model, hne, hslash, hapart, ⟨hgen, rfl⟩ | ⟨rfl, hpath⟩⟩ := hdiverts
  · refine Or.inl ⟨hgen, ⟨model, hne, hslash, rfl⟩, ?_⟩
    rintro ⟨model', -, -, heq⟩
    by_cases hsame : streamPath (filledPath path model') = filledPath (streamPath path) model'
    · -- the same model has been filled in
      obtain ⟨start', ending', hplace, -⟩ := stream_place h hgen
      rw [hsame, replace_place hplace, replace_place hplace] at heq
      obtain rfl := append_cancel_left (append_cancel_right heq)
      exact hapart hsame
    · exact diverted_apart h hgen hsame model heq.symm
  · refine Or.inr ⟨⟨model, hne, hslash, rfl⟩, hpath, fun hgen => ?_⟩
    rintro ⟨model', -, -, heq⟩
    exact diverted_apart h hgen hapart model' heq

theorem two_forms {a o a' o' b d : Prop} (hfirst : o → ¬ a) (hboth : a ∨ o → ¬ (a' ∨ o')) (hshort : o ∨ o' → ¬ b)
    (hfilled : b → a ∨ a' ∨ d) (hstream : a' → b ∨ d) (hdiverts : d → (a' ∧ ¬ b) ∨ (b ∧ ¬ a ∧ ¬ a')) :
    ((a ∨ o) ∨ a' ∨ o' ↔ a ∨ b) ↔ ¬ o ∧ ¬ o' ∧ ¬ d := by
  constructor
  · intro hiff
    refine ⟨fun ho => ?_, fun ho' => ?_, fun hd => ?_⟩
    · rcases hiff.1 (Or.inl (Or.inr ho)) with ha | hb
      · exact hfirst ho ha
      · exact hshort (Or.inl ho) hb
    · rcases hiff.1 (Or.inr (Or.inr ho')) with ha | hb
      · exact hboth (Or.inl ha) (Or.inr ho')
      · exact hshort (Or.inr ho') hb
    · rcases hdiverts hd with ⟨ha', hb⟩ | ⟨hb, ha, ha'⟩
      · rcases hiff.1 (Or.inr (Or.inl ha')) with ha | hb'
        · exact hboth (Or.inl ha) (Or.inl ha')
        · exact hb hb'
      · rcases hiff.2 (Or.inr hb) with (hpath | ho) | hpath | ho'
        · exact ha hpath
        · exact hshort (Or.inl ho) hb
        · exact ha' hpath
        · exact hshort (Or.inr ho') hb
  · rintro ⟨ho, ho', hd⟩
    rw [or_iff_left ho, or_iff_left ho']
    constructor
    · rintro (ha | ha')
      · exact Or.inl ha
      · exact Or.inr ((hstream ha').resolve_right hd)
    · rintro (ha | hb)
      · exact Or.inl ha
      · exact (hfilled hb).imp_right fun h => h.resolve_right hd

/-- **A request is matched exactly if it is of one of the two forms, unless the parts of a form overlap in it, or its model
brings a `:generateContent` of its own.** -/
theorem incoming_path_iff (requestPath : List Char) (h : ∃ start ending, PlaceBetween path start ending) :
    (matchAdvancedCustomIncomingPath path requestPath = true ↔
      IsPathOf path requestPath ∨ IsStreamPathOf path requestPath) ↔
    ¬ Overlaps path requestPath ∧ ¬ Overlaps (streamPath path) requestPath ∧ ¬ Diverts path requestPath := by
  obtain ⟨start, ending, h⟩ := h
  have hcode : matchAdvancedCustomIncomingPath path requestPath = true ↔
      matchAdvancedCustomIncomingPathTemplate path requestPath = true ∨ ((cutList generateContent path).isSome = true ∧
        matchAdvancedCustomIncomingPathTemplate (streamPath path) requestPath = true) := by
    unfold matchAdvancedCustomIncomingPath
    split
    · tauto
    · split
      · tauto
      · tauto
  have hfirst := @template_iff path requestPath start ending h
  have hnot := @overlaps_not_path path requestPath
  have hshort := @overlaps_not_stream path requestPath start ending h
  have hfilled := @stream_of_filled path requestPath
  have hdiverts := @diverts_cases path requestPath start ending h
  rw [hcode, hfirst]
  by_cases hgen : (cutList generateContent path).isSome = true
  · obtain ⟨start', ending', hplace, -⟩ := stream_place h hgen
    have hsecond := @template_iff (streamPath path) requestPath start' ending' hplace
    have hboth := @not_both path requestPath start ending h hgen
    rw [hfirst, hsecond] at hboth
    rw [and_iff_right hgen, hsecond]
    refine two_forms hnot hboth (fun hoverlap => hshort (hoverlap.imp_right fun ho' => ⟨hgen, ho'⟩)) hfilled
      (filled_of_stream hgen) fun hd => ?_
    exact (hdiverts hd).imp (fun hs => hs.2) fun hs => ⟨hs.1, hs.2.1, hs.2.2 hgen⟩
  · have hsame : streamPath path = path := by
      unfold streamPath replaceFirstList
      rw [not_isSome_iff_eq_none.1 hgen]
    rw [hsame] at hfilled hdiverts ⊢
    rw [iff_false_intro hgen, false_and, or_false]
    tauto

/-- A stream of a model. -/
theorem incoming_path_stream : matchAdvancedCustomIncomingPath "/v1/models/\x7bmodel\x7d:generateContent".toList
      "/v1/models/gemini:streamGenerateContent".toList = true := by
  have hplace : PlaceBetween "/v1/models/\x7bmodel\x7d:generateContent".toList "/v1/models/".toList generateContent := by
    unfold PlaceBetween
    decide +kernel
  have hpath : IsPathOf (streamPath "/v1/models/\x7bmodel\x7d:generateContent".toList)
      "/v1/models/gemini:streamGenerateContent".toList :=
    ⟨"gemini".toList, by decide +kernel, by decide +kernel, by decide +kernel⟩
  have hstream : IsStreamPathOf "/v1/models/\x7bmodel\x7d:generateContent".toList
      "/v1/models/gemini:streamGenerateContent".toList :=
    ⟨"gemini".toList, by decide +kernel, by decide +kernel, by decide +kernel⟩
  refine ((incoming_path_iff _ ⟨_, _, hplace⟩).2 ⟨fun h => ?_, fun h => ?_, fun h => ?_⟩).2 (Or.inr hstream)
  · exact overlaps_not_stream hplace (Or.inl h) hstream
  · exact overlaps_not_path h hpath
  · rcases diverts_cases hplace h with ⟨-, -, hnot⟩ | ⟨-, -, hnot⟩
    · exact hnot hstream
    · exact hnot (by decide +kernel) hpath

/-- A request without a model. -/
theorem incoming_path_overlap : ¬ ∀ path requestPath : List Char, (∃ start ending, PlaceBetween path start ending) →
    (matchAdvancedCustomIncomingPath path requestPath = true ↔
      IsPathOf path requestPath ∨ IsStreamPathOf path requestPath) := by
  intro h
  have hplace : PlaceBetween "/v1/models/\x7bmodel\x7d/predict".toList "/v1/models/".toList "/predict".toList := by
    unfold PlaceBetween
    decide +kernel
  have hoverlap : Overlaps "/v1/models/\x7bmodel\x7d/predict".toList "/v1/models/predict".toList :=
    ⟨_, _, "predict".toList, hplace, by decide +kernel, by decide +kernel, by decide +kernel, by decide +kernel,
      by decide +kernel⟩
  rcases (h _ "/v1/models/predict".toList ⟨_, _, hplace⟩).1 (by decide +kernel) with hpath | hstream
  · exact overlaps_not_path hoverlap hpath
  · exact overlaps_not_stream hplace (Or.inl hoverlap) hstream

end NovaMaas.Relay
