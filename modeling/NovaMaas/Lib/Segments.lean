/-
  Texts of segments between separators, and the first place of a text inside another.

  A text with a separator is its first segment and then, for every further one, the separator and the segment.
  `splitList_joined` and `joined_of_split` are the two directions.  `cutList` looks for the first place of a text; it
  passes over what the text cannot begin in.
-/
import NovaMaas.Lib.Text

open List

namespace NovaMaas

variable {sep : Char}

/-! ## Segments -/

/-- Every segment with the separator before it. -/
def joinTail (sep : Char) (ts : List (List Char)) : List Char := ts.flatMap fun t => sep :: t

@[simp] theorem joinTail_nil : joinTail sep [] = [] := rfl

@[simp] theorem joinTail_cons (t : List Char) (ts : List (List Char)) :
    joinTail sep (t :: ts) = sep :: (t ++ joinTail sep ts) := rfl

@[simp] theorem joinTail_append (ts us : List (List Char)) :
    joinTail sep (ts ++ us) = joinTail sep ts ++ joinTail sep us := flatMap_append

variable {s : List Char}

theorem splitList_free (hs : sep ∉ s) : splitList sep s = [s] := by
  induction s with
  | nil => rfl
  | cons c s ih =>
    have hc : c ≠ sep := fun heq => hs (heq ▸ mem_cons_self)
    rw [splitList, if_neg hc, ih fun hmem => hs (mem_cons_of_mem c hmem)]

variable {rest : List Char}

theorem splitList_append (hs : sep ∉ s) :
    splitList sep (s ++ sep :: rest) = s :: splitList sep rest := by
  induction s with
  | nil => rw [nil_append, splitList, if_pos rfl]
  | cons c s ih =>
    have hc : c ≠ sep := fun heq => hs (heq ▸ mem_cons_self)
    rw [cons_append, splitList, if_neg hc, ih fun hmem => hs (mem_cons_of_mem c hmem)]

variable {ts : List (List Char)}

theorem splitList_joined (hs : sep ∉ s) (hts : ∀ t ∈ ts, sep ∉ t) :
    splitList sep (s ++ joinTail sep ts) = s :: ts := by
  induction ts generalizing s with
  | nil => rw [joinTail_nil, append_nil, splitList_free hs]
  | cons t ts ih =>
    rw [joinTail_cons, splitList_append hs, ih (hts t mem_cons_self) fun u hu => hts u (mem_cons_of_mem t hu)]

/-- Every text is its segments. -/
theorem joined_of_split (p : List Char) :
    ∃ s ts, splitList sep p = s :: ts ∧ sep ∉ s ∧ (∀ t ∈ ts, sep ∉ t) ∧ p = s ++ joinTail sep ts := by
  induction p with
  | nil => exact ⟨[], [], rfl, not_mem_nil, fun _ ht => absurd ht not_mem_nil, rfl⟩
  | cons c p ih =>
    obtain ⟨s, ts, hsplit, hs, hts, rfl⟩ := ih
    by_cases hc : c = sep
    · subst hc
      refine ⟨[], s :: ts, ?_, not_mem_nil, ?_, rfl⟩
      · rw [splitList, if_pos rfl, hsplit]
      · intro t ht
        rcases mem_cons.1 ht with rfl | ht
        · exact hs
        · exact hts t ht
    · refine ⟨c :: s, ts, ?_, ?_, hts, rfl⟩
      · rw [splitList, if_neg hc, hsplit]
      · intro hmem
        rcases mem_cons.1 hmem with heq | hmem
        · exact hc heq.symm
        · exact hs hmem

/-! ## First places -/

variable {sub : List Char}

theorem cutList_here (hne : sub ≠ []) : cutList sub (sub ++ rest) = some ([], rest) := by
  cases sub with
  | nil => exact absurd rfl hne
  | cons c sub =>
    have hbegin : (c :: sub).isPrefixOf (c :: (sub ++ rest)) = true :=
      isPrefixOf_iff_prefix.2 (prefix_append (c :: sub) rest)
    rw [cons_append, cutList, if_pos hbegin, ← cons_append, drop_left]

theorem cutList_cons_of_not {c : Char} (h : ¬ sub <+: c :: s) :
    cutList sub (c :: s) = (cutList sub s).map fun p => (c :: p.1, p.2) := by
  rw [cutList, if_neg fun hbegin => h ( isPrefixOf_iff_prefix.1 hbegin)]

/-- What does not hold the text's first character is passed over. -/
theorem cutList_pass {x : Char} {a : List Char} (ha : x ∉ a) :
    cutList (x :: sub) (a ++ rest) = (cutList (x :: sub) rest).map fun p => (a ++ p.1, p.2) := by
  induction a with
  | nil => simp
  | cons c a ih =>
    have hc : ¬ (x :: sub) <+: c :: (a ++ rest) := by
      intro hbegin
      have heq : x = c := (cons_prefix_cons.1 hbegin).1
      exact ha (heq ▸ mem_cons_self)
    rw [cons_append, cutList_cons_of_not hc, ih fun hmem => ha (mem_cons_of_mem c hmem), Option.map_map]
    rfl

/-- A text without separators begins a segment, or it does not begin there. -/
theorem prefix_segment {t u : List Char} (ht : sep ∉ t)
    (h : t <+: u ++ joinTail sep ts) : t <+: u := by
  obtain ⟨k, hk⟩ := h
  rcases append_eq_append_iff.1 hk with ⟨a, rfl, -⟩ | ⟨c, rfl, hc⟩
  · exact prefix_append t a
  · -- `t` would go on behind `u`, with a separator
    cases c with
    | nil => rw [append_nil]
    | cons x c =>
      cases ts with
      | nil => cases hc
      | cons t' ts =>
        rw [joinTail_cons, cons_append] at hc
        have heq : sep = x := (cons.inj hc).1
        exact absurd (mem_append_right u (heq ▸ mem_cons_self)) ht

/-- Segments that do not begin with the text are passed over. -/
theorem cutList_segments {t : List Char} {us : List (List Char)} (ht : sep ∉ t)
    (hfree : ∀ u ∈ us, sep ∉ u) (hus : ∀ u ∈ us, ¬ t <+: u) :
    cutList (sep :: t) (joinTail sep us ++ joinTail sep ts) =
      (cutList (sep :: t) (joinTail sep ts)).map fun p => (joinTail sep us ++ p.1, p.2) := by
  induction us with
  | nil =>
    rw [joinTail_nil, nil_append]
    cases cutList (sep :: t) (joinTail sep ts) <;> rfl
  | cons u us ih =>
    have hnot : ¬ (sep :: t) <+: sep :: (u ++ (joinTail sep us ++ joinTail sep ts)) := by
      intro hbegin
      have hbegins := (cons_prefix_cons.1 hbegin).2
      rw [← joinTail_append] at hbegins
      exact hus u mem_cons_self (prefix_segment ht hbegins)
    rw [joinTail_cons, cons_append, append_assoc, cutList_cons_of_not hnot,
      cutList_pass (hfree u mem_cons_self),
      ih (fun v hv => hfree v (mem_cons_of_mem u hv)) fun v hv => hus v (mem_cons_of_mem u hv),
      Option.map_map, Option.map_map]
    simp [Function.comp_def]

/-- `strings.Replace` with the count 1, on characters. -/
def replaceFirstList (old new s : List Char) : List Char :=
  match cutList old s with
  | none => s
  | some (before, behind) => before ++ new ++ behind

/-- The first segment to begin with a text has its beginning replaced. -/
theorem replaceFirst_segment {t new v : List Char} {us : List (List Char)} (hs : sep ∉ s) (ht : sep ∉ t)
    (hfree : ∀ u ∈ us, sep ∉ u) (hus : ∀ u ∈ us, ¬ t <+: u) :
    replaceFirstList (sep :: t) (sep :: new) (s ++ joinTail sep (us ++ (t ++ v) :: ts)) =
      s ++ joinTail sep (us ++ (new ++ v) :: ts) := by
  have hcut : cutList (sep :: t) (s ++ joinTail sep (us ++ (t ++ v) :: ts)) =
      some (s ++ joinTail sep us, v ++ joinTail sep ts) := by
    rw [cutList_pass hs, joinTail_append, cutList_segments ht hfree hus, joinTail_cons, append_assoc,
      ← cons_append, cutList_here (cons_ne_nil sep t)]
    simp
  unfold replaceFirstList
  rw [hcut]
  simp

end NovaMaas
