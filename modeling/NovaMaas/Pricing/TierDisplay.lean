/-
  The prices on the price page and the prices in the editor.

  An expression that the editor accepts is a text with tiers (`accepted_tiers`), and the display finds the same tiers
  with the same labels and conditions.  The prices are the same but for two things: a number that has a plus sign
  directly behind it is taken with the plus sign, and so shown as zero; and a price of `p` or `c` that is no number
  stays NaN in the editor.  Both can be seen in the text (`pricesApart`).
-/
import NovaMaas.Pricing.TierTexts

open Option hiding map_map mem_map

open List hiding map mem_map

namespace NovaMaas.Pricing

open Pattern Places

/-! ## Characters of a sum of prices -/

/-- The characters of which sums of prices are made. -/
def isPlain (c : Char) : Bool := isBlank c || isWord c || isNumeral c || c == '*'

theorem plain_of_blank {g : Text} (h : White g) : ∀ c ∈ g, isPlain c = true := by
  intro c hc
  unfold isPlain
  rw [h c hc]
  rfl

theorem Priced.plain {i : Item} {t behind : Text} (h : Priced i t behind) (hbehind : ∀ c ∈ behind, isPlain c = true) :
    ∀ c ∈ t, isPlain c = true := by
  obtain ⟨g, g', rfl, hg, hg', ⟨-, hn⟩, -⟩ := h
  intro c hc
  rcases mem_append.1 hc with hc | hc
  · unfold isPlain
    rw [key_word i.name c hc, Bool.or_true]
    rfl
  · rcases mem_append.1 hc with hc | hc
    · exact plain_of_blank hg c hc
    · rcases mem_cons.1 hc with rfl | hc
      · rfl
      · rcases mem_append.1 hc with hc | hc
        · exact plain_of_blank hg' c hc
        · rcases mem_append.1 hc with hc | hc
          · unfold isPlain
            rw [hn c hc, Bool.or_true]
            rfl
          · exact hbehind c hc

variable {is : List Item} {t : Text}

theorem terms_plain (h : Terms is t) : ∀ c ∈ t, isPlain c = true := by
  induction is generalizing t with
  | nil =>
    have hnil : t = [] := h
    rw [hnil]
    simp
  | cons _ _ ih =>
    obtain ⟨w, w', u, behind, rfl, hw, hw', hi, hterms⟩ := h
    intro c hc
    rcases mem_append.1 hc with hc | hc
    · exact plain_of_blank hw c hc
    · rcases mem_cons.1 hc with rfl | hc
      · rfl
      · rcases mem_append.1 hc with hc | hc
        · exact plain_of_blank hw' c hc
        · exact hi.plain (ih hterms) c hc

theorem body_plain (h : TierBody is t) : ∀ c ∈ t, isPlain c = true := by
  cases is with
  | nil => exact h.elim
  | cons =>
    obtain ⟨behind, hi, hterms⟩ := h
    exact hi.plain (terms_plain hterms)

theorem body_head (h : TierBody is t) : t ≠ [] ∧ t.head?.any isBlank = false := by
  cases is with
  | nil => exact h.elim
  | cons i =>
    obtain ⟨behind, ⟨g, g', rfl, -⟩, -⟩ := h
    refine ⟨fun hnil => key_ne_nil i.name (append_eq_nil_iff.1 hnil).1, ?_⟩
    cases i.name <;> rfl

/-! ## Texts with tiers -/

/-- A tier in a text: the condition before it, its label, and the prices with their text. -/
structure TierText where
  cond   : Option Text
  label  : Text
  items  : List Item
  body   : Text
  isBody : TierBody items body

/-- `tier("`. -/
def opening : Text := ['t', 'i', 'e', 'r', '(', '"']

/-- The text of a tier without its condition, and what stands behind it. -/
def Called (T : TierText) (t rest : Text) : Prop :=
  ∃ w, t = opening ++ (T.label ++ ('"' :: ',' :: (w ++ (T.body ++ ')' :: rest)))) ∧ White w ∧ '"' ∉ T.label

/-- A text with tiers, and no quotation marks but those of their labels. -/
def Tiers : List TierText → Text → Prop
  | [], s => '"' ∉ s
  | T :: Ts, s => ∃ gap t rest, s = gap ++ t ∧ '"' ∉ gap ∧ Called T t rest ∧ Tiers Ts rest

theorem Tiers.prepend {Ts : List TierText} {u s : Text} (hu : '"' ∉ u) (h : Tiers Ts s) : Tiers Ts (u ++ s) := by
  cases Ts with
  | nil => exact not_mem_append hu h
  | cons =>
    obtain ⟨gap, t, rest, rfl, hgap, hcall, hrest⟩ := h
    exact ⟨u ++ gap, t, rest, (append_assoc u gap t).symm, not_mem_append hu hgap, hcall, hrest⟩

theorem opening_quote (x : Text) : opening ++ x = ['t', 'i', 'e', 'r', '('] ++ '"' :: x := rfl

/-- The first call of a text is where its first quotation mark is. -/
theorem opening_unique {a b x y : Text} (ha : '"' ∉ a) (hb : '"' ∉ b) (h : a ++ (opening ++ x) = b ++ (opening ++ y)) :
    a = b ∧ x = y := by
  rw [opening_quote, opening_quote, ← List.append_assoc, ← List.append_assoc] at h
  obtain ⟨hab, hxy⟩ := eq_of_first (List.not_mem_append ha (by decide)) (List.not_mem_append hb (by decide)) h
  exact ⟨List.append_cancel_right hab, hxy⟩

/-- The prices of a tier, as the editor's regular expression captures them. -/
def Captures (T : TierText) (m : Text × Text × Text × List (Option Text)) : Prop :=
  m.1 = T.label ∧
    T.items.map Item.pair = (PricedVar.p, m.2.1) :: (PricedVar.c, m.2.2.1) :: present billingCacheVars m.2.2.2 ∧
    m.2.2.2.length = billingCacheVars.length

variable {rest : Text}

/-- What stands before the prices. -/
theorem mem_tierHead {s label : Text} (h : (label, rest) ∈ tierHead.run s) :
    ∃ w, s = opening ++ (label ++ ('"' :: ',' :: (w ++ rest))) ∧ White w ∧ '"' ∉ label := by
  simp only [tierHead, blanks, mem_andThen, mem_map, mem_lit, exists_const, mem_many] at h
  obtain ⟨_, rfl, label, _, ⟨rfl, hall⟩, _, rfl, w, ⟨rfl, hw⟩, rfl⟩ := h
  exact ⟨w, rfl, hw, fun hmem => absurd (hall '"' hmem) (by decide)⟩

theorem tierCall_called {s : Text} {m : Text × Text × Text × List (Option Text)} (cond : Option Text)
    (h : (m, rest) ∈ (tierCall bodyPat).run s) : ∃ T, T.cond = cond ∧ Called T s rest ∧ Captures T m := by
  obtain ⟨label, mid, hlabel, h⟩ := mem_andThen.1 h
  obtain ⟨⟨input, output, cache⟩, mid', hbody, h⟩ := mem_andThen.1 h
  obtain ⟨_, hparen, rfl⟩ := mem_map.1 h
  obtain ⟨is, t, rfl, hbody, hpairs, hlen⟩ := bodyPat_body hbody
  obtain ⟨w, rfl, hw, hlabel⟩ := mem_tierHead hlabel
  refine ⟨⟨cond, label, is, t, hbody⟩, rfl, ⟨w, ?_, hw, hlabel⟩, rfl, hpairs, hlen⟩
  rw [mem_lit.1 hparen]
  rfl

/-- At the place of a tier the display reads its label and all the text of its prices. -/
theorem tierCall_shown {T : TierText} (h : Called T t rest) :
    (tierCall noParen).exec t = some ((T.label, T.body), rest) := by
  obtain ⟨w, rfl, hw, hlabel⟩ := h
  obtain ⟨hne, hhead⟩ := body_head T.isBody
  have hparen : ((lit [')']).map fun _ => (T.label, T.body)).exec (')' :: rest) = some ((T.label, T.body), rest) := by
    rw [exec_map]
    show Option.map _ ((lit [')']).exec ([')'] ++ rest)) = _
    rw [exec_lit]
    rfl
  have hchars : ∀ c ∈ T.body, (c != ')') = true := by
    intro c hc
    rw [bne_iff_ne]
    rintro rfl
    exact absurd (body_plain T.isBody _ hc) (by decide)
  have hprices : (noParen.andThen fun ps => (lit [')']).map fun _ => (T.label, ps)).exec (T.body ++ ')' :: rest) =
      some ((T.label, T.body), rest) := exec_andThen (exec_atLeastOne hne hchars rfl) hparen
  have hblank : (T.body ++ ')' :: rest).head?.any isBlank = false := by
    rw [head?_append_of_ne_nil _ hne]
    exact hhead
  have hspace : (blanks.map fun _ => T.label).exec (w ++ (T.body ++ ')' :: rest)) =
      some (T.label, T.body ++ ')' :: rest) := by
    rw [exec_map, blanks, exec_many hw hblank]
    rfl
  have hquote : ∀ c ∈ T.label, (c != '"') = true := by
    intro c hc
    rw [bne_iff_ne]
    rintro rfl
    exact hlabel hc
  have hhead : tierHead.exec (opening ++ (T.label ++ ('"' :: ',' :: (w ++ (T.body ++ ')' :: rest))))) =
      some (T.label, T.body ++ ')' :: rest) :=
    exec_andThen (exec_lit opening _) (exec_andThen (exec_many hquote rfl)
      (exec_andThen (exec_lit ['"', ','] (w ++ (T.body ++ ')' :: rest))) hspace))
  exact exec_andThen hhead hprices

theorem tierCall_opening {α : Type} {prices : Pattern α} {s : Text} {m : Text × α}
    (h : (m, rest) ∈ (tierCall prices).run s) : ∃ x, s = opening ++ x := by
  obtain ⟨label, mid, hlabel, -⟩ := mem_andThen.1 h
  obtain ⟨w, rfl, -, -⟩ := mem_tierHead hlabel
  exact ⟨_, rfl⟩

/-! ## The two regular expressions find the same tiers -/

theorem condPart_quote : condPart.Avoids '"' := by
  have hvar : (oneOf ([CondVar.p, .c, .len].map fun v => (lit v.key).map fun _ => v)).Avoids '"' := by
    refine avoids_oneOf fun r hr => ?_
    obtain ⟨v, -, rfl⟩ := List.mem_map.1 hr
    exact (avoids_lit (by cases v <;> decide)).map _
  have hop : (oneOf ([CondOp.lt, .le, .gt, .ge].map fun op => (lit op.key).map fun _ => op)).Avoids '"' := by
    refine avoids_oneOf fun r hr => ?_
    obtain ⟨op, -, rfl⟩ := List.mem_map.1 hr
    exact (avoids_lit (by cases op <;> decide)).map _
  have hblanks : blanks.Avoids '"' := avoids_many (by decide)
  have hcomparison : comparison.Avoids '"' :=
    hvar.andThen fun _ => hblanks.andThen fun _ => hop.andThen fun _ => hblanks.andThen fun _ =>
      (avoids_atLeastOne (by decide)).map _
  have hconjunction : conjunction.Avoids '"' :=
    hblanks.andThen fun _ => (avoids_lit (by decide)).andThen fun _ => hblanks.map _
  have hgroup : condGroup.Avoids '"' :=
    (hcomparison.andThen fun _ => (hconjunction.andThen fun _ => hcomparison).star).captured
  exact (hgroup.andThen fun _ => hblanks.andThen fun _ => (avoids_lit (by decide)).andThen fun _ => hblanks.map _).optional

theorem exec_map_none {α β : Type} {f : α → β} {r : Pattern α} {s : Text} :
    (r.map f).exec s = none ↔ r.exec s = none := by
  rw [exec_map, map_eq_none_iff]

/-- Where the next call of a tier is one that the editor reads, the two regular expressions match both or none; and if
they match, then the same condition, the same label and the text of the prices that the editor reads. -/
theorem tierRe_same {s gap : Text} (hs : s = gap ++ t) (hgap : '"' ∉ gap) (ht : (tierCall bodyPat).exec t ≠ none) :
    ((tierRe bodyPat).exec s = none ∧ (tierRe noParen).exec s = none) ∨
      ∃ T m rest u t', (tierRe bodyPat).exec s = some ((T.cond, m), rest) ∧
        (tierRe noParen).exec s = some ((T.cond, T.label, T.body), rest) ∧ Captures T m ∧
        s = u ++ t' ∧ '"' ∉ u ∧ Called T t' rest := by
  -- the only place where a call can begin behind a condition is the one that the editor reads
  have hplace : ∀ cond mid, (cond, mid) ∈ condPart.run s → (tierCall noParen).exec mid ≠ none → mid = t := by
    intro cond mid hcond hne
    obtain ⟨u, hu, hquote⟩ := condPart_quote s cond mid hcond
    obtain ⟨m, hm⟩ := ne_none_iff_exists'.1 hne
    obtain ⟨x, rfl⟩ := tierCall_opening (exec_mem hm)
    obtain ⟨m', hm'⟩ := ne_none_iff_exists'.1 ht
    obtain ⟨y, rfl⟩ := tierCall_opening (exec_mem hm')
    rw [hs] at hu
    obtain ⟨-, rfl⟩ := opening_unique hgap hquote hu
    rfl
  have hsame : ∀ cond mid, (cond, mid) ∈ condPart.run s →
      (((tierCall bodyPat).map fun m => (cond, m)).exec mid = none ↔
        ((tierCall noParen).map fun m => (cond, m)).exec mid = none) := by
    intro cond mid hcond
    rw [exec_map_none, exec_map_none]
    constructor
    · intro hnone
      by_contra hne
      rw [hplace cond mid hcond hne] at hnone
      exact ht hnone
    · intro hnone
      by_contra hne
      obtain ⟨m, hm⟩ := ne_none_iff_exists'.1 hne
      obtain ⟨T, -, hcall, -⟩ := tierCall_called cond (exec_mem hm)
      rw [tierCall_shown hcall] at hnone
      cases hnone
  cases h : (tierRe bodyPat).exec s with
  | none =>
    refine Or.inl ⟨rfl, ?_⟩
    by_contra hne
    obtain ⟨m, hm⟩ := ne_none_iff_exists'.1 hne
    obtain ⟨cond, mid, hcond, hk, heq⟩ := exec_andThen_same (fun a mid ha => (hsame a mid ha).symm) hm
    have hnone : ((tierCall bodyPat).map fun m => (cond, m)).exec mid = none := heq.symm.trans h
    rw [(hsame cond mid hcond).1 hnone] at hk
    cases hk
  | some x =>
    obtain ⟨cond, mid, hcond, hk, heq⟩ := exec_andThen_same hsame h
    rw [exec_map] at hk
    obtain ⟨⟨m, rest⟩, hm, hx⟩ := map_eq_some_iff.1 hk
    obtain rfl : ((cond, m), rest) = x := hx
    obtain ⟨T, rfl, hcall, hcaptures⟩ := tierCall_called cond (exec_mem hm)
    obtain ⟨u, hu, hquote⟩ := condPart_quote s T.cond mid hcond
    refine Or.inr ⟨T, m, rest, u, mid, rfl, ?_, hcaptures, hu, hquote, hcall⟩
    show (condPart.andThen _).exec s = _
    rw [heq, exec_map, tierCall_shown hcall]
    rfl

/-! ## Counting quotation marks -/

theorem body_no_quote (h : TierBody is t) : '"' ∉ t :=
  fun hmem => absurd (body_plain h _ hmem) (by decide)

theorem white_no_quote {w : Text} (h : White w) : '"' ∉ w :=
  fun hmem => absurd (h _ hmem) (by decide)

theorem Called.count {T : TierText} (h : Called T t rest) : t.count '"' = 2 + rest.count '"' := by
  obtain ⟨w, rfl, hw, hlabel⟩ := h
  have hopen : opening.count '"' = 1 := by decide
  have hclose : List.count '"' ('"' :: ',' :: (w ++ (T.body ++ ')' :: rest))) = 1 + rest.count '"' := by
    rw [count_cons_self, count_cons_of_ne (by decide), count_append, count_append,
      count_eq_zero_of_not_mem (white_no_quote hw), count_eq_zero_of_not_mem (body_no_quote T.isBody),
      count_cons_of_ne (by decide)]
    omega
  rw [count_append, count_append, count_eq_zero_of_not_mem hlabel, hopen, hclose]
  omega

theorem Called.length {T : TierText} (h : Called T t rest) : rest.length < t.length := by
  obtain ⟨w, rfl, -, -⟩ := h
  simp only [length_append, length_cons]
  omega

/-- The tiers that the editor finds. -/
def editorMatches (n : ℕ) (before : Option Char) (s : Text) :
    List (Option Text × Text × Text × Text × List (Option Text)) :=
  execAllFrom (fun _ => tierRe bodyPat) n before s

/-- The tiers that the display finds. -/
def displayMatches (n : ℕ) (before : Option Char) (s : Text) : List (Option Text × Text × Text) :=
  execAllFrom (fun _ => tierRe noParen) n before s

variable {before : Option Char} {n : ℕ}

theorem editorMatches_nil (h : (tierRe bodyPat).exec [] = none) :
    editorMatches n before [] = [] := execAllFrom_nil (r := fun _ => tierRe bodyPat) h

theorem editorMatches_skip {c : Char} {s : Text} (h : (tierRe bodyPat).exec (c :: s) = none) :
    editorMatches (n + 1) before (c :: s) = editorMatches n (some c) s :=
  execAllFrom_skip (r := fun _ => tierRe bodyPat) h

theorem editorMatches_match {s : Text}
    {m : Option Text × Text × Text × Text × List (Option Text)} (h : (tierRe bodyPat).exec s = some (m, rest)) :
    editorMatches (n + 1) before s = m :: editorMatches n ((matchedText s rest).getLast?.or before) rest :=
  execAllFrom_match (r := fun _ => tierRe bodyPat) h

theorem displayMatches_nil (h : (tierRe noParen).exec [] = none) :
    displayMatches n before [] = [] := execAllFrom_nil (r := fun _ => tierRe noParen) h

theorem displayMatches_skip {c : Char} {s : Text} (h : (tierRe noParen).exec (c :: s) = none) :
    displayMatches (n + 1) before (c :: s) = displayMatches n (some c) s :=
  execAllFrom_skip (r := fun _ => tierRe noParen) h

theorem displayMatches_match {s : Text} {m : Option Text × Text × Text}
    (h : (tierRe noParen).exec s = some (m, rest)) :
    displayMatches (n + 1) before s = m :: displayMatches n ((matchedText s rest).getLast?.or before) rest :=
  execAllFrom_match (r := fun _ => tierRe noParen) h

/-- A match of the editor, as a text. -/
theorem tierRe_called {s : Text} {m : Option Text × Text × Text × Text × List (Option Text)}
    (h : (tierRe bodyPat).exec s = some (m, rest)) :
    ∃ T u t, s = u ++ t ∧ '"' ∉ u ∧ Called T t rest ∧ (tierCall bodyPat).exec t ≠ none := by
  obtain ⟨cond, mid, hcond, hm⟩ := mem_andThen.1 (exec_mem h)
  obtain ⟨m', hm', -⟩ := mem_map.1 hm
  obtain ⟨u, hu, hquote⟩ := condPart_quote s cond mid hcond
  obtain ⟨T, -, hcall, -⟩ := tierCall_called cond hm'
  refine ⟨T, u, mid, hu, hquote, hcall, fun hnone => ?_⟩
  rw [exec_none_iff.1 hnone] at hm'
  cases hm'

/-- Each tier that the editor finds has two quotation marks. -/
theorem editorMatches_count (n : ℕ) (before : Option Char) (s : Text) :
    2 * (editorMatches n before s).length ≤ s.count '"' := by
  induction n generalizing before s with
  | zero => exact Nat.zero_le _
  | succ _ ih =>
    cases h : (tierRe bodyPat).exec s with
    | some x =>
      obtain ⟨m, rest⟩ := x
      obtain ⟨T, u, t, hs, hu, hcall, -⟩ := tierRe_called h
      have hrest := ih ((matchedText s rest).getLast?.or before) rest
      have hcount : s.count '"' = u.count '"' + (2 + rest.count '"') := by rw [hs, List.count_append, hcall.count]
      rw [editorMatches_match h, List.length_cons]
      omega
    | none =>
      cases s with
      | nil =>
        rw [editorMatches_nil h]
        exact Nat.zero_le _
      | cons c s =>
        rw [editorMatches_skip h]
        exact (ih (some c) s).trans (List.Sublist.count_le _ (List.sublist_cons_self c s))

/-- Where the first tier is that the editor finds. -/
theorem editorMatches_first {s : Text} (h : editorMatches n before s ≠ []) :
    ∃ gap s' m rest k before', s = gap ++ s' ∧ (tierRe bodyPat).exec s' = some (m, rest) ∧
      editorMatches n before s = m :: editorMatches k before' rest := by
  induction n generalizing before s with
  | zero => exact absurd rfl h
  | succ n ih =>
    cases hexec : (tierRe bodyPat).exec s with
    | some x => exact ⟨[], s, x.1, x.2, n, _, rfl, hexec, editorMatches_match hexec⟩
    | none =>
      cases s with
      | nil => exact absurd (editorMatches_nil hexec) h
      | cons c =>
        rw [editorMatches_skip hexec] at h ⊢
        obtain ⟨gap, s', m, rest, k, before', rfl, hm, heq⟩ := ih h
        exact ⟨c :: gap, s', m, rest, k, before', rfl, hm, heq⟩

theorem tierRe_quote {α : Type} {prices : Pattern α} {s : Text} (h : '"' ∉ s) : (tierRe prices).exec s = none := by
  refine exec_none_of fun m rest hm => ?_
  obtain ⟨cond, mid, hcond, hm⟩ := mem_andThen.1 hm
  obtain ⟨m', hm', -⟩ := mem_map.1 hm
  obtain ⟨x, rfl⟩ := tierCall_opening hm'
  obtain ⟨u, rfl, -⟩ := condPart_quote s cond _ hcond
  exact h (mem_append_right _ (mem_append_left _ (by decide)))

theorem displayMatches_quote {s : Text} (h : '"' ∉ s) :
    displayMatches n before s = [] := by
  induction n generalizing before s with
  | zero => rfl
  | succ _ ih =>
    cases s with
    | nil => exact displayMatches_nil (tierRe_quote h)
    | cons c =>
      rw [displayMatches_skip (tierRe_quote h)]
      exact ih fun hmem => h (List.mem_cons_of_mem c hmem)

/-- In a text with two quotation marks for each tier that the editor finds, the display finds the same tiers. -/
theorem same_tiers {s : Text}
    (hcount : s.count '"' = 2 * (editorMatches n before s).length) (hn : s.length < n) :
    ∃ Ts, Tiers Ts s ∧ List.Forall₂ (fun m T => m.1 = T.cond ∧ Captures T m.2) (editorMatches n before s) Ts ∧
      displayMatches n before s = Ts.map fun T => (T.cond, T.label, T.body) := by
  induction n generalizing before s with
  | zero => omega
  | succ n ih =>
    by_cases hnil : editorMatches (n + 1) before s = []
    · rw [hnil] at hcount ⊢
      have hquote : '"' ∉ s := List.count_eq_zero.1 hcount
      exact ⟨[], hquote, List.Forall₂.nil, displayMatches_quote hquote⟩
    · -- there is no quotation mark before the first tier that the editor finds
      obtain ⟨gap, s', m, rest, k, before', hs, hm, hmatches⟩ := editorMatches_first hnil
      obtain ⟨T, u, t, rfl, hu, hcall, hread⟩ := tierRe_called hm
      have hgap : '"' ∉ gap := by
        have hrest := editorMatches_count k before' rest
        rw [hmatches, hs, count_append, count_append, hcall.count, length_cons] at hcount
        exact count_eq_zero.1 (by omega)
      have hwhole : s = (gap ++ u) ++ t := by rw [hs, append_assoc]
      rcases tierRe_same hwhole (not_mem_append hgap hu) hread with
        ⟨heditor, hdisplay⟩ | ⟨T', m', rest', u', t', heditor, hdisplay, hcaptures, hs', hu', hcall'⟩
      · cases s with
        | nil => exact absurd (editorMatches_nil heditor) hnil
        | cons c =>
          have hc : c ≠ '"' := by
            rintro rfl
            cases gap with
            | nil =>
              rw [List.nil_append] at hs
              rw [hs, hm] at heditor
              cases heditor
            | cons =>
              rw [List.cons_append] at hs
              obtain ⟨rfl, -⟩ := List.cons.inj hs
              exact hgap List.mem_cons_self
          rw [editorMatches_skip heditor, List.count_cons_of_ne hc] at hcount
          obtain ⟨Ts, hTs, hcaptured, hshown⟩ := ih hcount (by rw [List.length_cons] at hn; omega)
          rw [editorMatches_skip heditor, displayMatches_skip hdisplay]
          exact ⟨Ts, hTs.prepend (u := [c]) (by simpa using hc.symm), hcaptured, hshown⟩
      · have hcount' : s.count '"' = 2 + rest'.count '"' := by
          rw [hs', List.count_append, hcall'.count, List.count_eq_zero_of_not_mem hu', Nat.zero_add]
        have hlen : rest'.length < n := by
          have hlen' := hcall'.length
          rw [hs', List.length_append] at hn
          omega
        rw [editorMatches_match heditor, List.length_cons] at hcount
        obtain ⟨Ts, hTs, hcaptured, hshown⟩ :=
          @ih ((matchedText s rest').getLast?.or before) rest' (by omega) hlen
        rw [editorMatches_match heditor, displayMatches_match hdisplay]
        exact ⟨T' :: Ts, ⟨u', t', rest', hs', hu', hcall', hTs⟩, List.Forall₂.cons ⟨rfl, hcaptures⟩ hcaptured,
          congrArg _ hshown⟩

/-! ## Quotation marks of what the editor writes -/

section

variable {F : Type} (N : JsNumbers F)

theorem count_join {sep : Text} (hsep : '"' ∉ sep) (ts : List Text) :
    (join sep ts).count '"' = (ts.map fun t => t.count '"').sum := by
  induction ts with
  | nil => rfl
  | cons t ts ih =>
    cases ts with
    | nil => rw [join, map_singleton, sum_singleton]
    | cons t' ts =>
      have hjoin : join sep (t :: t' :: ts) = t ++ sep ++ join sep (t' :: ts) := rfl
      rw [hjoin, count_append, count_append, count_eq_zero_of_not_mem hsep, ih, Nat.add_zero,
        map_cons (l := t' :: ts), sum_cons]

theorem join_quote {sep : Text} (hsep : '"' ∉ sep) {ts : List Text} (h : ∀ t ∈ ts, '"' ∉ t) : '"' ∉ join sep ts := by
  rw [← List.count_eq_zero, count_join hsep, List.sum_eq_zero]
  intro n hn
  obtain ⟨t, ht, rfl⟩ := List.mem_map.1 hn
  exact List.count_eq_zero.2 (h t ht)

theorem key_quote (v : PricedVar) : '"' ∉ v.key :=
  fun h => absurd (key_word v _ h) (by decide)

theorem priceStr_quote {name : Text} (h : '"' ∉ name) (x : F) : '"' ∉ priceStr N name x :=
  not_mem_append (not_mem_append h (by decide)) (N.text_plain x)

theorem conditionStr_quote {c : TierConditionInput F} (h : '"' ∉ c.value.written N) : '"' ∉ conditionStr N c := by
  have hvar : '"' ∉ c.var.key := by cases c.var <;> decide
  have hop : '"' ∉ c.op.key := by cases c.op <;> decide
  exact not_mem_append (not_mem_append (not_mem_append (not_mem_append hvar (by decide)) hop)
    (by decide)) h

theorem buildConditionStr_quote {cs : List (TierConditionInput F)} (h : ∀ c ∈ cs, '"' ∉ c.value.written N) :
    '"' ∉ buildConditionStr N cs := by
  refine join_quote (by decide) fun t ht => ?_
  obtain ⟨c, hc, rfl⟩ := List.mem_map.1 ht
  exact conditionStr_quote N (h c (mem_of_mem_filter hc))

variable [DecidableEq F]

theorem body_quote (tier : VisualTier F) : '"' ∉ buildTierBodyExpr N tier := by
  refine join_quote (by decide) fun t ht => ?_
  rcases List.mem_cons.1 ht with rfl | ht
  · exact priceStr_quote N (by decide) _
  · rcases List.mem_cons.1 ht with rfl | ht
    · exact priceStr_quote N (by decide) _
    · obtain ⟨q, -, rfl⟩ := List.mem_map.1 ht
      exact priceStr_quote N (key_quote q.1) q.2

theorem tierStr_count {label : Text} (h : '"' ∉ label) (tier : VisualTier F) : (tierStr N label tier).count '"' = 2 := by
  unfold tierStr
  have hopen : ("tier(\"".toList).count '"' = 1 := by decide
  have hclose : ("\", ".toList).count '"' = 1 := by decide
  rw [List.count_append, List.count_append, List.count_append, List.count_append, hopen, hclose,
    List.count_eq_zero_of_not_mem h, List.count_eq_zero_of_not_mem (body_quote N tier)]
  rfl

theorem labelOr_quote {label : Text} (h : '"' ∉ label) (i : ℕ) : '"' ∉ labelOr label i := by
  unfold labelOr
  split
  · refine List.not_mem_append (by decide) ?_
    show '"' ∉ (Nat.repr (i + 1)).toList
    intro hmem
    rw [Nat.toList_repr] at hmem
    exact absurd (Nat.isDigit_of_mem_toDigits (by decide) (by decide) hmem) (by decide)
  · exact h

theorem tierPart_count {tier : VisualTier F} (hlabel : '"' ∉ tier.label)
    (hcond : ∀ c ∈ tier.conditions, '"' ∉ c.value.written N) (last : Bool) (i : ℕ) :
    (tierPart N last i tier).count '"' = 2 := by
  have hbody := tierStr_count N (labelOr_quote hlabel i) tier
  unfold tierPart
  simp only
  split
  · have hmark : (" ? ".toList).count '"' = 0 := by decide
    rw [count_append, count_append, hbody, hmark, count_eq_zero_of_not_mem (buildConditionStr_quote N hcond)]
  · exact hbody

/-- A written expression has two quotation marks for each tier. -/
theorem generateExpr_count {tiers : List (VisualTier F)} (hne : tiers ≠ []) (hlabel : ∀ t ∈ tiers, '"' ∉ t.label)
    (hcond : ∀ t ∈ tiers, ∀ c ∈ t.conditions, '"' ∉ c.value.written N) :
    (generateExprFromVisualConfig N tiers).count '"' = 2 * tiers.length := by
  cases tiers with
  | nil => exact absurd rfl hne
  | cons tier tiers =>
    cases tiers with
    | nil =>
      have hname : '"' ∉ (if tier.label = [] then "default".toList else tier.label) := by
        split
        · decide
        · exact hlabel tier mem_cons_self
      have hbody := tierStr_count N hname tier
      have hquote := buildConditionStr_quote N (hcond tier mem_cons_self)
      unfold generateExprFromVisualConfig
      simp only
      split
      · have hmark : (" ? ".toList).count '"' = 0 := by decide
        have helse : (" : p * 0 + c * 0".toList).count '"' = 0 := by decide
        rw [count_append, count_append, count_append, hbody, hmark, helse, count_eq_zero_of_not_mem hquote]
        rfl
      · exact hbody
    | cons tier' tiers =>
      show (join " : ".toList ((tier :: tier' :: tiers).mapIdx fun i t =>
        tierPart N (isLast (tier :: tier' :: tiers) i) i t)).count '"' = _
      rw [count_join (by decide)]
      have hall : ∀ n ∈ ((tier :: tier' :: tiers).mapIdx fun i t =>
          tierPart N (isLast (tier :: tier' :: tiers) i) i t).map (fun t => t.count '"'), n = 2 := by
        intro n hn
        obtain ⟨t, ht, rfl⟩ := List.mem_map.1 hn
        obtain ⟨i, hi, rfl⟩ := mem_mapIdx.1 ht
        have hmem := getElem_mem hi
        exact tierPart_count N (hlabel _ hmem) (hcond _ hmem) _ i
      rw [eq_replicate_of_mem hall, sum_replicate, length_map, length_mapIdx, smul_eq_mul, Nat.mul_comm]

/-! ## The tiers of an accepted expression -/

theorem stripExprVersion_prefix (expr : Text) : ∃ u, expr = u ++ stripExprVersion expr ∧ '"' ∉ u := by
  unfold stripExprVersion
  cases h : version.exec expr with
  | none => exact ⟨[], rfl, List.not_mem_nil⟩
  | some m =>
    have hversion : version.Avoids '"' :=
      (avoids_lit (by decide)).andThen fun _ => (avoids_atLeastOne (by decide)).andThen fun _ =>
        (avoids_lit (by decide)).map _
    exact hversion expr m.1 m.2 (exec_mem h)

/-- No condition begins as a tier does. -/
theorem condPart_opening (x : Text) : condPart.exec (opening ++ x) = some (none, opening ++ x) := by
  have hnone : ((condGroup.andThen fun cond => blanks.andThen fun _ => (lit ['?']).andThen fun _ =>
      blanks.map fun _ => cond).map some).run (opening ++ x) = [] := by
    refine eq_nil_iff_forall_not_mem.2 fun m hm => ?_
    obtain ⟨a, ha, -⟩ := mem_map.1 (show (m.1, m.2) ∈ _ from hm)
    obtain ⟨cond, mid, hcond, -⟩ := mem_andThen.1 ha
    obtain ⟨_, hgroup, -⟩ := mem_captured.1 hcond
    obtain ⟨_, mid', hcomparison, -⟩ := mem_andThen.1 hgroup
    obtain ⟨v, mid'', hvar, -⟩ := mem_andThen.1 hcomparison
    obtain ⟨r, hr, hkey⟩ := mem_oneOf.1 hvar
    obtain ⟨w, -, rfl⟩ := List.mem_map.1 hr
    obtain ⟨_, hlit, -⟩ := mem_map.1 hkey
    have heq := mem_lit.1 hlit
    cases w <;> cases heq
  show (((condGroup.andThen _).map some).run (opening ++ x) ++ [(none, opening ++ x)]).head? = _
  rw [hnone]
  rfl

theorem editorMatches_label {n : ℕ} {before : Option Char} {s : Text} :
    ∀ m ∈ editorMatches n before s, '"' ∉ m.2.1 := by
  induction n generalizing before s with
  | zero => exact fun m hm => absurd hm List.not_mem_nil
  | succ _ ih =>
    intro m hm
    cases h : (tierRe bodyPat).exec s with
    | some x =>
      obtain ⟨m', rest⟩ := x
      rw [editorMatches_match h] at hm
      rcases List.mem_cons.1 hm with rfl | hm
      · obtain ⟨cond, mid, -, hmap⟩ := mem_andThen.1 (exec_mem h)
        obtain ⟨m', hcall, rfl⟩ := mem_map.1 hmap
        obtain ⟨T, -, ⟨w, -, -, hlabel⟩, hcaptures⟩ := tierCall_called cond hcall
        rw [hcaptures.1]
        exact hlabel
      · exact ih m hm
    | none =>
      cases s with
      | nil =>
        rw [editorMatches_nil h] at hm
        cases hm
      | cons =>
        rw [editorMatches_skip h] at hm
        exact ih m hm

/-- What the editor keeps of a match. -/
def keptTier (m : Option Text × Text × Text × Text × List (Option Text)) : VisualTier F :=
  normalizeVisualTier N (normalizeVisualTier N (visualTier N m))

omit [DecidableEq F] in
theorem normalizeVisualConfig_ne_nil {tiers : List (VisualTier F)} (h : tiers ≠ []) :
    normalizeVisualConfig N tiers = tiers.map (normalizeVisualTier N) := if_neg h

omit [DecidableEq F] in
theorem keptTier_conditions (m : Option Text × Text × Text × Text × List (Option Text)) :
    ∀ c ∈ (keptTier N m).conditions, '"' ∉ c.value.written N := by
  intro c hc
  obtain ⟨c', -, rfl⟩ := List.mem_map.1 (show c ∈ List.map _ _ from hc)
  show '"' ∉ N.written c'.value
  cases c'.value with
  | none =>
    show '"' ∉ "NaN".toList
    decide
  | some x => exact N.text_plain x

/-- An expression that the editor accepts is a text with tiers, in which the display finds the same ones. -/
theorem accepted_tiers {expr : Text} {cfg : List (VisualTier F)} (h : tryParseVisualConfig N expr = some cfg) :
    ∃ Ts ms, Tiers Ts expr ∧ List.Forall₂ (fun m T => m.1 = T.cond ∧ Captures T m.2) ms Ts ∧
      cfg = ms.map (keptTier N) ∧ parseTiersFromExpr N expr = Ts.map fun T => parsedTier N (T.cond, T.label, T.body) := by
  unfold tryParseVisualConfig at h
  by_cases hnil : expr = []
  · rw [if_pos hnil] at h
    cases h
  rw [if_neg hnil] at h
  simp only at h
  obtain ⟨u, hexpr, hu⟩ := stripExprVersion_prefix expr
  have hparse : parseTiersFromExpr N expr =
      (displayMatches ((stripExprVersion expr).length + 1) none (stripExprVersion expr)).map (parsedTier N) :=
    if_neg hnil
  generalize hbody : stripExprVersion expr = body at h hexpr hparse
  cases hsingle : singleRe.execWhole body with
  | some =>
    rw [hsingle] at h
    -- one tier without a condition, and nothing behind it
    obtain ⟨m', hcall, rfl⟩ := mem_map.1 (execWhole_some hsingle)
    obtain ⟨T, hcond, hT, hcaptures⟩ := tierCall_called none hcall
    have hopening : ∃ x, body = opening ++ x := tierCall_opening hcall
    obtain ⟨x, rfl⟩ := hopening
    have hdisplay : (tierRe noParen).exec (opening ++ x) = some ((none, T.label, T.body), []) := by
      refine exec_andThen (condPart_opening x) ?_
      rw [exec_map, tierCall_shown hT]
      rfl
    refine ⟨[T], [(none, m')], ?_, List.Forall₂.cons ⟨hcond.symm, hcaptures⟩ List.Forall₂.nil, ?_, ?_⟩
    · rw [hexpr]
      exact Tiers.prepend hu ⟨[], _, [], rfl, not_mem_nil, hT, not_mem_nil⟩
    · exact (some.inj h).symm
    · rw [hparse, displayMatches_match hdisplay, displayMatches_nil (tierRe_quote not_mem_nil), map_singleton,
        map_singleton, hcond]
  | none =>
    rw [hsingle] at h
    have hmatches : (execAll (fun _ => tierRe bodyPat) body) = editorMatches (body.length + 1) none body := rfl
    rw [hmatches] at h
    by_cases hms : editorMatches (body.length + 1) none body = []
    · rw [hms] at h
      cases h
    have hne : (editorMatches (body.length + 1) none body).map (fun m => normalizeVisualTier N (visualTier N m)) ≠ [] :=
      fun hmap => hms (map_eq_nil_iff.1 hmap)
    simp only at h
    rw [if_neg hne, normalizeVisualConfig_ne_nil N hne, map_map] at h
    change (if withoutBlanks (generateExprFromVisualConfig N ((editorMatches (body.length + 1) none body).map
      (keptTier N))) ≠ withoutBlanks body then none else some ((editorMatches (body.length + 1) none body).map
      (keptTier N))) = some cfg at h
    split at h
    · cases h
    · rename_i hwritten
      have hequal := not_not.1 hwritten
      have hquotes : ∀ t : Text, (withoutBlanks t).count '"' = t.count '"' := by
        intro t
        exact count_filter (by decide)
      have hcount : body.count '"' = 2 * (editorMatches (body.length + 1) none body).length := by
        rw [← hquotes body, ← hequal, hquotes, generateExpr_count N, length_map]
        · exact fun hmap => hms (map_eq_nil_iff.1 hmap)
        · intro t ht
          obtain ⟨m, hm, rfl⟩ := List.mem_map.1 ht
          exact editorMatches_label m hm
        · intro t ht
          obtain ⟨m, -, rfl⟩ := List.mem_map.1 ht
          exact keptTier_conditions N m
      obtain ⟨Ts, hTs, hcaptured, hshown⟩ := same_tiers hcount (Nat.lt_succ_self _)
      refine ⟨Ts, _, ?_, hcaptured, (some.inj h).symm, ?_⟩
      · rw [hexpr]
        exact hTs.prepend hu
      · rw [hparse, hshown, map_map]
        rfl

end

end NovaMaas.Pricing
