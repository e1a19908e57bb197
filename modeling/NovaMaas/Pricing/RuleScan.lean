/-
  Taking a text apart at a separator, where no parenthesis is open.

  `cutTopLevel_cases` says once what the scan does: it cuts at the FIRST place where the separator stands and as many
  parentheses are closed as are opened, or nowhere.  So texts joined with the separator are taken apart where they were
  joined, if they have no such place of their own and close what they open (`cut_join`).  Conversely, if the parts that
  the scan gives are read as what the texts say, then they ARE the texts, and the texts are of this kind (`cut_reads`).
-/
import NovaMaas.Pricing.RequestRule
import NovaMaas.Pricing.TierTexts

open List

namespace NovaMaas.Pricing

open Places

/-- The parentheses that a text opens, less those that it closes. -/
def opens (s : Text) : ℤ := (s.map parenStep).sum

theorem opens_cons (c : Char) (s : Text) : opens (c :: s) = parenStep c + opens s := by
  unfold opens
  rw [map_cons, sum_cons]

/-- A separator: a blank, something else, and no parentheses. -/
structure Separator (sep : Text) : Prop where
  begins  : ∃ e s, sep = ' ' :: e :: s ∧ isBlank e = false
  no_step : ∀ c ∈ sep, parenStep c = 0

variable {sep : Text}

theorem no_step_of_all (h : (sep.all fun c => parenStep c = 0) = true) : ∀ c ∈ sep, parenStep c = 0 :=
  fun c hc => of_decide_eq_true (all_eq_true.1 h c hc)

theorem separator_and : Separator " && ".toList where
  begins := ⟨'&', _, rfl, by decide⟩
  no_step := no_step_of_all (by decide)

theorem separator_multiply : Separator " * ".toList where
  begins := ⟨'*', _, rfl, by decide⟩
  no_step := no_step_of_all (by decide)

theorem Separator.ne_nil (h : Separator sep) : sep ≠ [] := by
  obtain ⟨e, s, rfl, -⟩ := h.begins
  exact cons_ne_nil _ _

/-- The text has the separator nowhere outside of parentheses. -/
def Clean (sep s : Text) : Prop := ∀ u v, s = u ++ (sep ++ v) → opens u ≠ 0

/-- No text has the separator outside of parentheses, and each but the last closes as many parentheses as it opens. -/
def Apart (sep : Text) : List Text → Prop
  | [] => True
  | [t] => Clean sep t
  | t :: t' :: ts => Clean sep t ∧ opens t = 0 ∧ Apart sep (t' :: ts)

/-! ## The scan -/

theorem cutTopLevel_skip (sep x rest : Text) (depth : ℤ) (piece : Text) :
    cutTopLevel sep x.length depth piece (x ++ rest) = cutTopLevel sep 0 depth piece rest := by
  induction x with
  | nil => rfl
  | cons _ _ ih => exact ih

/-- The scan cuts nowhere, or at the first place where the separator stands outside of parentheses. -/
theorem cutTopLevel_cases (hsep : Separator sep) (depth : ℤ) (piece s : Text) :
    (cutTopLevel sep 0 depth piece s = [piece ++ s] ∧ ∀ u v, s = u ++ (sep ++ v) → depth + opens u ≠ 0) ∨
      ∃ t rest, s = t ++ (sep ++ rest) ∧ depth + opens t = 0 ∧
        (∀ u v, s = u ++ (sep ++ v) → u.length < t.length → depth + opens u ≠ 0) ∧
        cutTopLevel sep 0 depth piece s = (piece ++ t) :: cutTopLevel sep 0 0 [] rest := by
  induction s generalizing depth piece with
  | nil =>
    refine Or.inl ⟨by rw [append_nil]; rfl, fun u v h => ?_⟩
    exact absurd (append_eq_nil_iff.1 (append_eq_nil_iff.1 h.symm).2).1 hsep.ne_nil
  | cons c s ih =>
    by_cases hcut : depth + parenStep c = 0 ∧ sep.isPrefixOf (c :: s)
    · obtain ⟨rest, hrest⟩ := isPrefixOf_iff_prefix.1 hcut.2
      obtain ⟨e, w, hw, -⟩ := hsep.begins
      rw [hw, cons_append] at hrest
      obtain ⟨rfl, rfl⟩ := cons.inj hrest
      have hstep : parenStep ' ' = 0 := by decide
      refine Or.inr ⟨[], rest, by rw [hw]; rfl, ?_, fun u v _ hlen => absurd hlen (Nat.not_lt_zero _), ?_⟩
      · rw [← hcut.1, hstep]
        rfl
      · have hskip := cutTopLevel_skip sep (e :: w) rest 0 []
        rw [cutTopLevel, if_pos hcut, append_nil, ← hskip]
        have hlen : sep.length - 1 = (e :: w).length := by
          rw [hw]
          rfl
        rw [hlen]
    · have hequal : cutTopLevel sep 0 depth piece (c :: s) =
          cutTopLevel sep 0 (depth + parenStep c) (piece ++ [c]) s := by
        rw [cutTopLevel, if_neg hcut]
      -- the separator does not stand at the first place, or a parenthesis is open there
      have hfirst : ∀ v, c :: s = [] ++ (sep ++ v) → depth + opens [] ≠ 0 := by
        intro v hv hzero
        refine hcut ⟨?_, isPrefixOf_iff_prefix.2 ⟨v, hv.symm⟩⟩
        have hmem : c ∈ sep := by
          obtain ⟨e, w, rfl, -⟩ := hsep.begins
          rw [nil_append, cons_append] at hv
          rw [(cons.inj hv).1]
          exact mem_cons_self
        rw [hsep.no_step c hmem]
        exact hzero
      have hlater : ∀ d u v, c :: s = d :: u ++ (sep ++ v) → d = c ∧ s = u ++ (sep ++ v) := by
        intro d u v h
        rw [cons_append] at h
        obtain ⟨rfl, rfl⟩ := cons.inj h
        exact ⟨rfl, rfl⟩
      rcases ih (depth + parenStep c) (piece ++ [c]) with ⟨hnone, hall⟩ | ⟨t, rest, rfl, hopens, hall, hsome⟩
      · refine Or.inl ⟨by rw [hequal, hnone, append_assoc]; rfl, fun u v h => ?_⟩
        cases u with
        | nil => exact hfirst v h
        | cons d u =>
          obtain ⟨rfl, hs⟩ := hlater d u v h
          have hne := hall u v hs
          rw [opens_cons]
          omega
      · refine Or.inr ⟨c :: t, rest, rfl, by rw [opens_cons]; omega, fun u v h hlen => ?_, ?_⟩
        · cases u with
          | nil => exact hfirst v h
          | cons d u =>
            obtain ⟨rfl, hs⟩ := hlater d u v h
            have hne := hall u v hs (by simpa using hlen)
            rw [opens_cons]
            omega
        · rw [hequal, hsome, append_assoc]
          rfl

/-- A text that is followed by the separator or by nothing, and does not end with a part of it. -/
theorem place_cases {sep t rest u v : Text} (hlast : ∀ c ∈ t.getLast?, c ∉ sep)
    (h : t ++ rest = u ++ (sep ++ v)) (hlen : u.length < t.length) : ∃ v', t = u ++ (sep ++ v') := by
  rcases append_eq_append_iff.1 h with ⟨w, rfl, -⟩ | ⟨w, rfl, hw⟩
  · rw [length_append] at hlen
    omega
  · cases w with
    | nil => simp at hlen
    | cons c w =>
      rcases append_eq_append_iff.1 hw with ⟨w', hw', -⟩ | ⟨w', hw', -⟩
      · exact ⟨w', by rw [hw']⟩
      · -- the text would end within the separator
        exfalso
        have hend : (u ++ c :: w).getLast? = some ((c :: w).getLast (cons_ne_nil _ _)) := by
          rw [getLast?_append, getLast?_eq_some_getLast (cons_ne_nil c w)]
          rfl
        have hmem : (c :: w).getLast (cons_ne_nil _ _) ∈ c :: w ++ w' :=
          mem_append_left _ (getLast_mem _)
        rw [← hw'] at hmem
        exact hlast _ hend hmem

/-- Texts that are apart are taken apart where they were joined. -/
theorem cut_join (hsep : Separator sep) {ts : List Text} (hne : ts ≠ [])
    (hlast : ∀ t ∈ ts, ∀ c ∈ t.getLast?, c ∉ sep) (happart : Apart sep ts) :
    cutTopLevel sep 0 0 [] (join sep ts) = ts := by
  induction ts with
  | nil => exact absurd rfl hne
  | cons t ts ih =>
    obtain ⟨htlast, htslast⟩ := forall_mem_cons.1 hlast
    cases ts with
    | nil =>
      show cutTopLevel sep 0 0 [] t = [t]
      rcases cutTopLevel_cases hsep 0 [] t with ⟨hnone, -⟩ | ⟨u, rest, hcut, hopens, -⟩
      · exact hnone
      · rw [Int.zero_add] at hopens
        exact absurd hopens (happart u rest hcut)
    | cons t' ts =>
      obtain ⟨hclean, hopens, happart⟩ := happart
      have hjoin : join sep (t :: t' :: ts) = t ++ (sep ++ join sep (t' :: ts)) := by
        rw [join, append_assoc]
        exact fun h => cons_ne_nil _ _ h
      rw [hjoin]
      rcases cutTopLevel_cases hsep 0 [] (t ++ (sep ++ join sep (t' :: ts))) with
        ⟨-, hall⟩ | ⟨u, rest, hcut, hu, hall, hsome⟩
      · exact absurd (by rw [hopens]; rfl) (hall t _ rfl)
      · rcases Nat.lt_trichotomy u.length t.length with hlen | hlen | hlen
        · obtain ⟨v', hv'⟩ := place_cases htlast hcut hlen
          rw [Int.zero_add] at hu
          exact absurd hu (hclean u v' hv')
        · obtain ⟨rfl, hrest⟩ := append_inj hcut hlen.symm
          rw [hsome, ← append_cancel_left hrest, ih (cons_ne_nil _ _) htslast happart]
          rfl
        · exact absurd (by rw [hopens]; rfl) (hall t _ rfl hlen)

/-! ## Texts without white space at their ends -/

/-- The text is not empty and has no white space at its ends. -/
structure Tight (s : Text) : Prop where
  ne_nil : s ≠ []
  head   : s.head?.any isBlank = false
  last   : s.getLast?.any isBlank = false

theorem dropWhile_of_head {p : Char → Bool} {s : Text} (h : s.head?.any p = false) : s.dropWhile p = s := by
  cases s with
  | nil => rfl
  | cons c =>
    have hc : p c = false := h
    rw [dropWhile_cons, hc]
    rfl

theorem Tight.trim_eq {s : Text} (h : Tight s) : trim s = s := by
  unfold trim
  rw [dropWhile_of_head h.head, dropWhile_of_head (by rw [head?_reverse]; exact h.last), reverse_reverse]

/-- A text that does not begin with white space is its trimmed text and white space. -/
theorem trim_of_head {s : Text} (hne : s ≠ []) (h : s.head?.any isBlank = false) :
    ∃ b, s = trim s ++ b ∧ White b ∧ Tight (trim s) := by
  have htrim : trim s = (s.reverse.dropWhile isBlank).reverse := by
    unfold trim
    rw [dropWhile_of_head h]
  have hsplit : s = trim s ++ (s.reverse.takeWhile isBlank).reverse := by
    rw [htrim, ← reverse_append, takeWhile_append_dropWhile, reverse_reverse]
  have hwhite : White (s.reverse.takeWhile isBlank).reverse :=
    fun c hc => mem_takeWhile_imp (mem_reverse.1 hc)
  have hnil : trim s ≠ [] := by
    intro hnil
    rw [hnil, nil_append] at hsplit
    cases s with
    | nil => exact hne rfl
    | cons c =>
      have hblank := hwhite c (by rw [← hsplit]; exact mem_cons_self)
      have hc : isBlank c = false := h
      rw [hc] at hblank
      cases hblank
  refine ⟨_, hsplit, hwhite, hnil, ?_, ?_⟩
  · rw [hsplit, head?_append_of_ne_nil _ hnil] at h
    exact h
  · rw [htrim, getLast?_reverse]
    cases hdrop : s.reverse.dropWhile isBlank with
    | nil => rfl
    | cons =>
      have hhead := head?_dropWhile_not isBlank s.reverse
      rw [hdrop] at hhead
      simpa using hhead

/-! ## What the parts are, if they are read as the texts -/

theorem cancel_front (w : Text) {x y : Text} (h : w ++ x = w ++ y) : x = y := append_cancel_left h

/-- What may follow a text: nothing, or one blank and something else. -/
def Follow (s : Text) : Prop := s = [] ∨ ∃ e t, s = ' ' :: e :: t ∧ isBlank e = false

theorem Separator.follow (h : Separator sep) (s : Text) : Follow (sep ++ s) := by
  obtain ⟨e, t, rfl, he⟩ := h.begins
  exact Or.inr ⟨e, t ++ s, rfl, he⟩

/-- Blanks between two texts that may follow one are none. -/
theorem white_follow {b x y : Text} (hb : White b) (hx : Follow x) (hy : Follow y) (h : b ++ x = y) : b = [] := by
  cases b with
  | nil => rfl
  | cons _ b =>
    exfalso
    rcases hy with rfl | ⟨e, t, rfl, he⟩
    · cases h
    · rw [cons_append] at h
      obtain ⟨-, h⟩ := cons.inj h
      cases b with
      | nil =>
        rw [nil_append] at h
        rcases hx with rfl | ⟨e', t', rfl, -⟩
        · cases h
        · obtain ⟨rfl, -⟩ := cons.inj h
          exact absurd he (by decide)
      | cons d =>
        rw [cons_append] at h
        obtain ⟨rfl, -⟩ := cons.inj h
        rw [hb d (mem_cons_of_mem _ mem_cons_self)] at he
        cases he

theorem splitTopLevel_one {sep s : Text} (h : cutTopLevel sep 0 0 [] s = [s]) (ht : trim s ≠ []) :
    splitTopLevel sep s = [trim s] := by
  unfold splitTopLevel
  rw [h, map_singleton, filter_singleton, decide_eq_true ht]
  rfl

theorem splitTopLevel_cons {sep s t rest : Text} (h : cutTopLevel sep 0 0 [] s = t :: cutTopLevel sep 0 0 [] rest)
    (ht : trim t ≠ []) : splitTopLevel sep s = trim t :: splitTopLevel sep rest := by
  unfold splitTopLevel
  rw [h, map_cons, filter_cons, if_pos (decide_eq_true ht)]

/-- The parts of a text that begins as some joined texts do: if they are read as what these texts say, and a part that
is read so is the text that says it, then the text is the joined texts, and these are apart. -/
theorem cut_reads {α : Type} (hsep : Separator sep) {reads : Text → α → Prop} {printed : α → Text → Prop}
    (hsame : ∀ a p t x y, Tight p → reads p a → printed a t → p ++ x = t ++ y → p = t)
    (hhead : ∀ a t, printed a t → t ≠ [] ∧ t.head?.any isBlank = false)
    {as : List α} {ts : List Text} {s x y : Text} (has : as ≠ [])
    (hreads : List.Forall₂ reads (splitTopLevel sep s) as) (hprinted : List.Forall₂ printed as ts)
    (heq : s ++ x = join sep ts ++ y) (hx : Follow x) (hy : Follow y) (hnot : ¬ sep <+: y) :
    s = join sep ts ∧ Apart sep ts := by
  induction ts generalizing as s with
  | nil =>
    cases hprinted
    exact absurd rfl has
  | cons t ts ih =>
    obtain ⟨a, as', ha, has', rfl⟩ := forall₂_cons_right_iff.1 hprinted
    obtain ⟨hne, hblank⟩ := hhead a t ha
    -- what follows the first text
    obtain ⟨z, hjoin, hz⟩ : ∃ z, join sep (t :: ts) ++ y = t ++ z ∧ Follow z := by
      cases ts with
      | nil => exact ⟨y, rfl, hy⟩
      | cons t' ts =>
        refine ⟨sep ++ (join sep (t' :: ts) ++ y), ?_, hsep.follow _⟩
        show (t ++ sep ++ join sep (t' :: ts)) ++ y = _
        simp only [append_assoc]
    rw [hjoin] at heq
    cases s with
    | nil =>
      have hnil : splitTopLevel sep [] = [] := rfl
      rw [hnil] at hreads
      cases hreads
    | cons c s =>
      have hc : isBlank c = false := by
        cases t with
        | nil => exact absurd rfl hne
        | cons =>
          rw [cons_append, cons_append] at heq
          obtain ⟨rfl, -⟩ := cons.inj heq
          exact hblank
      rcases cutTopLevel_cases hsep 0 [] (c :: s) with ⟨hnone, hall⟩ | ⟨u, rest, hcut, hopens, hall, hsome⟩
      · -- the text is one part
        rw [nil_append] at hnone
        obtain ⟨b, hb, hwhite, htight⟩ := trim_of_head (cons_ne_nil c s) hc
        rw [splitTopLevel_one hnone htight.ne_nil] at hreads
        obtain ⟨hread, hnil⟩ := forall₂_cons.1 hreads
        cases hnil
        cases has'
        have hz' : z = y := append_cancel_left hjoin.symm
        have hpart : trim (c :: s) = t :=
          hsame a _ t (b ++ x) z htight hread ha (by rw [← append_assoc, ← hb]; exact heq)
        rw [hb, hpart, append_assoc] at heq
        have hbnil := white_follow hwhite hx hz (append_cancel_left heq)
        rw [hbnil, append_nil, hpart] at hb
        refine ⟨hb, fun v w hvw => ?_⟩
        have hopen := hall v w (by rw [hb]; exact hvw)
        rwa [Int.zero_add] at hopen
      · rw [nil_append] at hsome
        have hune : u ≠ [] := by
          rintro rfl
          obtain ⟨e, w, hw, -⟩ := hsep.begins
          rw [hw] at hcut
          obtain ⟨rfl, -⟩ := cons.inj hcut
          exact absurd hc (by decide)
        have huhead : u.head?.any isBlank = false := by
          cases u with
          | nil => exact absurd rfl hune
          | cons =>
            rw [cons_append] at hcut
            obtain ⟨rfl, -⟩ := cons.inj hcut
            exact hc
        obtain ⟨b, hb, hwhite, htight⟩ := trim_of_head hune huhead
        rw [splitTopLevel_cons hsome htight.ne_nil] at hreads
        obtain ⟨hread, hmore⟩ := forall₂_cons.1 hreads
        rw [hcut] at heq
        have hpart : trim u = t := by
          refine hsame a _ t (b ++ (sep ++ rest ++ x)) z htight hread ha ?_
          rw [← append_assoc, ← hb, ← append_assoc]
          exact heq
        rw [hb, hpart] at heq
        simp only [append_assoc] at heq
        have htail := append_cancel_left heq
        have hbnil := white_follow hwhite (hsep.follow _) hz htail
        rw [hbnil, append_nil, hpart] at hb
        rw [hbnil, nil_append] at htail
        subst hb
        cases ts with
        | nil =>
          have hz' : z = y := append_cancel_left hjoin.symm
          exact absurd ⟨_, htail.trans hz'⟩ hnot
        | cons t' ts =>
          have hz' : z = sep ++ (join sep (t' :: ts) ++ y) := by
            refine cancel_front u (hjoin.symm.trans ?_)
            show (u ++ sep ++ join sep (t' :: ts)) ++ y = _
            simp only [append_assoc]
          rw [hz'] at htail
          have hasne : as' ≠ [] := by
            rintro rfl
            cases has'
          obtain ⟨hrest, happart⟩ := ih hasne hmore has' (append_cancel_left htail)
          refine ⟨?_, fun v w hvw => ?_, by rwa [Int.zero_add] at hopens, happart⟩
          · rw [hcut, hrest]
            show _ = u ++ sep ++ join sep (t' :: ts)
            rw [append_assoc]
          · have hplace : c :: s = v ++ (sep ++ (w ++ (sep ++ rest))) := by
              rw [hcut, hvw]
              simp only [append_assoc]
            have hlen : v.length < u.length := by
              have hpos : 0 < sep.length := length_pos_of_ne_nil hsep.ne_nil
              have hcount := congrArg length hvw
              simp only [length_append] at hcount
              omega
            have hopen := hall v _ hplace hlen
            rwa [Int.zero_add] at hopen

end NovaMaas.Pricing
