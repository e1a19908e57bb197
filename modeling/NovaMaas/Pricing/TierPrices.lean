/-
  Where the displayed prices differ from the editor's prices.

  A place at which a text has a price is described by the text alone (`PriceAt`): in the call of a tier, outside of the
  labels, a name, a star and a numeral that is as long as it can be.  In a text with tiers these places are the prices
  of the tiers, and no others (`priceAt_iff`).  So the difference between the two readers is a condition on the text:
  the display is right if and only if no price other than zero has a plus sign directly behind it with the next name,
  and the prices of `p` and `c` are numbers (`PricesApart`).
-/
import NovaMaas.Pricing.TierDisplay

open List

namespace NovaMaas.Pricing

open Pattern Places Item

/-! ## Places of prices in a sum -/

/-- A price with the numeral as long as it can be. -/
def Longest (v : PricedVar) (numeral behind t : Text) : Prop :=
  ∃ g g', t = v.key ++ (g ++ '*' :: (g' ++ (numeral ++ behind))) ∧ White g ∧ White g' ∧
    (numeral ≠ [] ∧ ∀ c ∈ numeral, isNumeral c = true) ∧ behind.head?.any isNumeral = false

variable {rest : Text} {is : List Item}

/-- Each price of a sum has its place. -/
theorem further_place {before : Option Char} (h : Further is before rest) :
    ∀ i ∈ is, ∃ y t behind, rest = y ++ t ∧ (y.getLast?.or before).any isWord = false ∧
      Longest i.name i.run behind t ∧ ∀ z, isGlued i.run (behind ++ ')' :: z) = i.glued := by
  induction is generalizing before rest with
  | nil => exact fun i hi => absurd hi not_mem_nil
  | cons j _ ih =>
    obtain ⟨x, u, behind, rfl, hx, hempty, hj, hterms⟩ := h
    obtain ⟨g, g', rest, rfl, hg, hg', hnum, hrest, hglued, hfurther⟩ := hj.further hterms
    have hlast : (x.getLast?.or before).any isWord = false := by
      cases hlast : x.getLast? with
      | none => exact hempty (getLast?_eq_none_iff.1 hlast)
      | some c =>
        rcases hx c (mem_of_getLast? hlast) with hc | rfl
        · exact not_word_of_blank hc
        · rfl
    intro i hi
    rcases mem_cons.1 hi with rfl | hi
    · exact ⟨x, _, rest, rfl, hlast, ⟨g, g', rfl, hg, hg', run_numeral hnum, hrest⟩, hglued⟩
    · obtain ⟨y, t, behind', rfl, hy, hlongest, hglued'⟩ := ih hfurther i hi
      refine ⟨x ++ (j.name.key ++ (g ++ '*' :: (g' ++ j.run))) ++ y, t, behind', ?_, ?_, hlongest, hglued'⟩
      · simp only [append_assoc, cons_append]
      · -- the last character before the place is that of the text behind the first price
        have hrun := (run_numeral hnum).1
        have hend : (x ++ (j.name.key ++ (g ++ '*' :: (g' ++ j.run))) ++ y).getLast? = y.getLast?.or j.run.getLast? := by
          cases y.eq_nil_or_concat with
          | inl hy =>
            rw [hy, append_nil, getLast?_append, getLast?_append, getLast?_append]
            cases hr : j.run.getLast? with
            | none => exact absurd (getLast?_eq_none_iff.1 hr) hrun
            | some c =>
              have hc : ('*' :: (g' ++ j.run)).getLast? = some c := by
                have heq : '*' :: (g' ++ j.run) = ('*' :: g') ++ j.run := rfl
                rw [heq, getLast?_append, hr]
                rfl
              rw [hc]
              rfl
          | inr hy =>
            obtain ⟨l, c, rfl⟩ := hy
            rw [concat_eq_append, ← append_assoc, getLast?_concat, getLast?_concat]
            rfl
        rw [hend]
        cases hl : y.getLast?.or j.run.getLast? with
        | none =>
          rw [hl] at hy
          exact absurd (getLast?_eq_none_iff.1 (Option.or_eq_none_iff.1 hl).2) hrun
        | some => rw [hl] at hy; exact hy

theorem key_plain (v : PricedVar) : ∃ c k, v.key = c :: k ∧ isWord c = true ∧ isNumeral c = false := by
  cases v <;> exact ⟨_, _, rfl, by decide, by decide⟩

theorem white_no_star {g : Text} (h : White g) : '*' ∉ g := fun hmem => absurd (h _ hmem) (by decide)

theorem key_no_star (v : PricedVar) : '*' ∉ v.key := fun hmem => absurd (key_word v _ hmem) (by decide)

theorem skipped_no_star {x : Text} (h : ∀ c ∈ x, isBlank c = true ∨ c = '+') : '*' ∉ x := by
  intro hmem
  rcases h _ hmem with hc | hc
  · exact absurd hc (by decide)
  · exact absurd hc (by decide)

variable {numeral behind : Text} {v : PricedVar}

/-- Each place of a price in a sum is that of one of its prices. -/
theorem further_item {before : Option Char} {y t : Text}
    (h : Further is before rest) (ht : Longest v numeral behind t) (hrest : rest = y ++ t)
    (hy : y.getLast?.any isWord = false) :
    ∃ i ∈ is, i.name = v ∧ i.run = numeral ∧ ∀ z, isGlued numeral (behind ++ ')' :: z) = i.glued := by
  induction is generalizing before rest y with
  | nil =>
    have hnil : rest = [] := h
    obtain ⟨g, g', rfl, -⟩ := ht
    rw [hnil] at hrest
    exact absurd (append_eq_nil_iff.1 (append_eq_nil_iff.1 hrest.symm).2).1 (key_ne_nil v)
  | cons i _ ih =>
    obtain ⟨x, u, behind', rfl, hx, -, hi, hterms⟩ := h
    obtain ⟨k, k', rest, rfl, hk, hk', hnum, hnext, hglued, hfurther⟩ := hi.further hterms
    obtain ⟨g, g', ht', hg, hg', hnumeral, hbehind⟩ := id ht
    have hstars : '*' ∉ x ++ (i.name.key ++ k) :=
      not_mem_append (skipped_no_star hx) (not_mem_append (key_no_star i.name) (white_no_star hk))
    have hfirst : x ++ (i.name.key ++ (k ++ '*' :: (k' ++ (i.run ++ rest)))) =
        (x ++ (i.name.key ++ k)) ++ '*' :: (k' ++ (i.run ++ rest)) := by
      simp only [append_assoc]
    rw [hfirst] at hrest
    by_cases hstar : '*' ∈ y
    · -- the place is behind the first price
      obtain ⟨y1, y2, rfl, hy1⟩ := eq_append_cons_of_mem hstar
      have hsplit : y1 ++ '*' :: y2 ++ t = y1 ++ '*' :: (y2 ++ t) := by
        rw [append_assoc, cons_append]
      obtain ⟨-, htail⟩ := eq_of_first hstars hy1 (hrest.trans hsplit)
      rw [← append_assoc] at htail
      rcases append_eq_append_iff.1 htail with ⟨y', rfl, hrest'⟩ | ⟨q, hq, hqt⟩
      · refine (ih hfurther hrest' ?_).imp fun j hj => ⟨mem_cons_of_mem i hj.1, hj.2⟩
        cases hlast : y'.getLast? with
        | none => rfl
        | some c =>
          have hend : (y1 ++ '*' :: (k' ++ i.run ++ y')).getLast? = some c := by
            have heq : y1 ++ '*' :: (k' ++ i.run ++ y') = (y1 ++ '*' :: (k' ++ i.run)) ++ y' := by
              simp only [append_assoc, cons_append]
            rw [heq, getLast?_append, hlast]
            rfl
          rw [hend] at hy
          exact hy
      · -- no name begins within white space and a numeral
        cases q with
        | nil =>
          rw [append_nil] at hq
          rw [nil_append] at hqt
          refine (ih (y := []) hfurther hqt.symm rfl).imp fun j hj => ⟨mem_cons_of_mem i hj.1, hj.2⟩
        | cons =>
          exfalso
          obtain ⟨d, l, hkey, hword, hnot⟩ := key_plain v
          rw [ht', hkey] at hqt
          obtain ⟨rfl, -⟩ := cons.inj hqt
          have hmem : d ∈ k' ++ i.run := by
            rw [hq]
            exact mem_append_right _ mem_cons_self
          rcases mem_append.1 hmem with hd | hd
          · rw [not_word_of_blank (hk' d hd)] at hword
            cases hword
          · rw [(run_numeral hnum).2 d hd] at hnot
            cases hnot
    · -- the place is that of the first price
      rw [ht'] at hrest
      have hsecond : y ++ (v.key ++ (g ++ '*' :: (g' ++ (numeral ++ behind)))) =
          (y ++ (v.key ++ g)) ++ '*' :: (g' ++ (numeral ++ behind)) := by
        simp only [append_assoc]
      rw [hsecond] at hrest
      obtain ⟨hhead, htail⟩ := eq_of_first hstars
        (not_mem_append hstar (not_mem_append (key_no_star v) (white_no_star hg))) hrest
      rw [← append_assoc, ← append_assoc] at hhead
      have hending : ∀ (w : Text) (name : PricedVar), (w ++ name.key).getLast?.any isBlank = false := by
        intro w name
        rw [getLast?_append]
        cases name <;> rfl
      obtain ⟨hnames, -⟩ := eq_of_ending (hending x i.name) (hending y v) hk hg hhead
      have hxlast : x.getLast?.any isWord = false := by
        cases hlast : x.getLast? with
        | none => rfl
        | some c =>
          rcases hx c (mem_of_getLast? hlast) with hc | rfl
          · exact not_word_of_blank hc
          · decide
      obtain ⟨-, hkeys⟩ := eq_of_ending hxlast hy (key_word i.name) (key_word v) hnames
      obtain ⟨-, hnumerals⟩ := eq_of_run hk' hg' (head_numeral (run_numeral hnum)) (head_numeral hnumeral) htail
      obtain ⟨hrun, rfl⟩ := eq_of_run (run_numeral hnum).2 hnumeral.2 hnext hbehind hnumerals
      refine ⟨i, mem_cons_self, key_inj hkeys, hrun, fun z => ?_⟩
      rw [← hrun]
      exact hglued z

theorem body_further {t : Text} (h : TierBody is t) : Further is none t := by
  cases is with
  | nil => exact h.elim
  | cons =>
    obtain ⟨behind, hi, hterms⟩ := h
    exact ⟨[], t, behind, rfl, by simp, fun _ => rfl, hi, hterms⟩

/-! ## Places of prices in an expression -/

/-- In the call of a tier, outside of the labels: a name, a star and a numeral that is as long as it can be. -/
def PriceAt (expr : Text) (v : PricedVar) (numeral behind : Text) : Prop :=
  ∃ before label between t, expr = before ++ (opening ++ (label ++ ('"' :: ',' :: (between ++ t)))) ∧
    Even (before.count '"') ∧ '"' ∉ label ∧ '"' ∉ between ∧ ')' ∉ between ∧ between.getLast?.any isWord = false ∧
    Longest v numeral behind t

theorem white_last {w y : Text} (hw : White w) (hy : y.getLast?.any isWord = false) :
    (w ++ y).getLast?.any isWord = false := by
  rw [getLast?_append]
  cases hlast : y.getLast? with
  | some => rw [hlast] at hy; exact hy
  | none =>
    cases hwlast : w.getLast? with
    | none => rfl
    | some c => exact not_word_of_blank (hw c (mem_of_getLast? hwlast))

/-- A price of the first tier. -/
theorem Called.place {T : TierText} {gap t : Text} (hgap : '"' ∉ gap) (h : Called T t rest) :
    ∀ i ∈ T.items, ∃ behind, PriceAt (gap ++ t) i.name i.run behind ∧ isGlued i.run behind = i.glued := by
  intro i hi
  obtain ⟨w, rfl, hw, hlabel⟩ := h
  obtain ⟨y, u, behind, hbody, hy, ⟨g, g', rfl, hg, hg', hnum, hbehind⟩, hglued⟩ :=
    further_place (body_further T.isBody) i hi
  rw [Option.or_none] at hy
  have hplain : ∀ c ∈ y, isPlain c = true := by
    intro c hc
    exact body_plain T.isBody c (by rw [hbody]; exact List.mem_append_left _ hc)
  refine ⟨behind ++ ')' :: rest, ⟨gap, T.label, w ++ y, _, ?_, ?_, hlabel, ?_, ?_, white_last hw hy, g, g', rfl, hg, hg',
    hnum, ?_⟩, hglued rest⟩
  · rw [hbody]
    simp only [List.append_assoc, List.cons_append]
  · rw [List.count_eq_zero_of_not_mem hgap]
    exact Even.zero
  · exact List.not_mem_append (white_no_quote hw) fun hmem => absurd (hplain _ hmem) (by decide)
  · exact List.not_mem_append (fun hmem => absurd (hw _ hmem) (by decide)) fun hmem => absurd (hplain _ hmem) (by decide)
  · cases behind with
    | nil => rfl
    | cons => exact hbehind

/-- A place in the text behind a tier is a place in the whole text. -/
theorem PriceAt.later {T : TierText} {gap t : Text} (hgap : '"' ∉ gap)
    (h : Called T t rest) (hprice : PriceAt rest v numeral behind) : PriceAt (gap ++ t) v numeral behind := by
  obtain ⟨before, label, between, u, hrest, heven, hmore⟩ := hprice
  have hcount := h.count
  obtain ⟨w, rfl, hw, hlabel⟩ := h
  refine ⟨gap ++ (opening ++ (T.label ++ ('"' :: ',' :: (w ++ (T.body ++ ')' :: before))))), label, between, u, ?_, ?_,
    hmore⟩
  · rw [hrest]
    simp only [List.append_assoc, List.cons_append]
  · have hcalled : Called T (opening ++ (T.label ++ ('"' :: ',' :: (w ++ (T.body ++ ')' :: before))))) before :=
      ⟨w, rfl, hw, hlabel⟩
    rw [count_append, count_eq_zero_of_not_mem hgap, hcalled.count, Nat.zero_add]
    exact even_two.add heven

theorem tiers_place {Ts : List TierText} {s : Text} (h : Tiers Ts s) :
    ∀ T ∈ Ts, ∀ i ∈ T.items, ∃ behind, PriceAt s i.name i.run behind ∧ isGlued i.run behind = i.glued := by
  induction Ts generalizing s with
  | nil => exact fun T hT => absurd hT not_mem_nil
  | cons _ _ ih =>
    obtain ⟨gap, t, rest, rfl, hgap, hcall, hrest⟩ := h
    intro T' hT' i hi
    rcases mem_cons.1 hT' with rfl | hT'
    · exact hcall.place hgap i hi
    · obtain ⟨behind, hprice, hglued⟩ := ih hrest T' hT' i hi
      exact ⟨behind, hprice.later hgap hcall, hglued⟩

/-- A place in the call of the first tier. -/
theorem Called.item {T : TierText} {t label between u : Text} (h : Called T t rest)
    (ht : t = opening ++ (label ++ ('"' :: ',' :: (between ++ u)))) (hlabel : '"' ∉ label) (hparen : ')' ∉ between)
    (hlast : between.getLast?.any isWord = false) (hlongest : Longest v numeral behind u) :
    ∃ i ∈ T.items, i.name = v ∧ i.run = numeral ∧ isGlued numeral behind = i.glued := by
  obtain ⟨w, ht', hw, hTlabel⟩ := h
  rw [ht'] at ht
  have hcalls := append_cancel_left ht
  obtain ⟨-, hcomma⟩ := eq_of_first hTlabel hlabel hcalls
  obtain ⟨-, hprices⟩ := cons.inj hcomma
  obtain ⟨g, g', rfl, hg, hg', hnum, hbehind⟩ := hlongest
  -- the price ends before the parenthesis that closes the call
  have hpart : (w ++ T.body) ++ ')' :: rest =
      [] ++ ((between ++ (v.key ++ (g ++ '*' :: (g' ++ numeral)))) ++ behind) := by
    simpa only [append_assoc, cons_append, nil_append] using hprices
  have hclosed : ')' ∉ between ++ (v.key ++ (g ++ '*' :: (g' ++ numeral))) := by
    refine not_mem_append hparen (not_mem_append (fun hmem => absurd (key_word v _ hmem) (by decide)) ?_)
    refine not_mem_append (fun hmem => absurd (hg _ hmem) (by decide)) fun hmem => ?_
    rcases mem_cons.1 hmem with hmem | hmem
    · exact absurd hmem (by decide)
    · rcases mem_append.1 hmem with hmem | hmem
      · exact absurd (hg' _ hmem) (by decide)
      · exact absurd (hnum.2 _ hmem) (by decide)
  have hne : between ++ (v.key ++ (g ++ '*' :: (g' ++ numeral))) ≠ [] := by
    intro hnil
    exact key_ne_nil v (append_eq_nil_iff.1 (append_eq_nil_iff.1 hnil).2).1
  rcases append_part_cases hpart hclosed hne with ⟨a', hnil, -⟩ | ⟨behind', hinside, hafter⟩
  · exact absurd (congrArg List.length hnil) (by simp)
  · rw [List.nil_append] at hinside
    -- the blanks before the first price belong to what stands before the place
    have hwhole : Further T.items none (w ++ T.body) := by
      have hfurther := body_further T.isBody
      cases hitems : T.items with
      | nil =>
        have hbody := T.isBody
        rw [hitems] at hbody
        exact hbody.elim
      | cons =>
        rw [hitems] at hfurther
        obtain ⟨x, t, b, hbody, hx, -, hi, hterms⟩ := hfurther
        refine ⟨w ++ x, t, b, by rw [hbody, append_assoc], ?_, fun _ => rfl, hi, hterms⟩
        intro c hc
        rcases mem_append.1 hc with hc | hc
        · exact Or.inl (hw c hc)
        · exact hx c hc
    have hlongest : Longest v numeral behind' (v.key ++ (g ++ '*' :: (g' ++ (numeral ++ behind')))) := by
      refine ⟨g, g', rfl, hg, hg', hnum, ?_⟩
      cases behind' with
      | nil => rfl
      | cons =>
        rw [hafter] at hbehind
        exact hbehind
    obtain ⟨i, hi, hname, hrun, hglued⟩ := further_item hwhole hlongest
      (by simpa only [append_assoc, cons_append] using hinside) hlast
    exact ⟨i, hi, hname, hrun, by rw [hafter]; exact hglued rest⟩

theorem opening_paren : ')' ∉ opening := by decide

/-- The places of prices in a text with tiers are those of the prices of its tiers. -/
theorem tiers_item {Ts : List TierText} {s : Text} (h : Tiers Ts s)
    (hprice : PriceAt s v numeral behind) :
    ∃ T ∈ Ts, ∃ i ∈ T.items, i.name = v ∧ i.run = numeral ∧ isGlued numeral behind = i.glued := by
  induction Ts generalizing s with
  | nil =>
    obtain ⟨before, label, between, t, rfl, -⟩ := hprice
    exact absurd (mem_append_right _ (mem_append_left _ (by decide))) (show '"' ∉ _ from h)
  | cons T _ ih =>
    obtain ⟨gap, t, rest, rfl, hgap, hcall, hrest⟩ := h
    obtain ⟨before, label, between, u, heq, heven, hlabel, hquote, hparen, hlast, hlongest⟩ := hprice
    by_cases hbefore : '"' ∈ before
    · -- behind the two quotation marks of the first tier
      obtain ⟨w, rfl, hw, hTlabel⟩ := id hcall
      obtain ⟨b1, b2, rfl, hb1⟩ := eq_append_cons_of_mem hbefore
      have hfirst : (gap ++ ['t', 'i', 'e', 'r', '(']) ++ '"' :: (T.label ++ ('"' :: ',' :: (w ++ (T.body ++ ')' :: rest)))) =
          b1 ++ '"' :: (b2 ++ (opening ++ (label ++ ('"' :: ',' :: (between ++ u))))) := by
        simpa only [append_assoc, cons_append, opening_quote] using heq
      obtain ⟨-, htail⟩ := eq_of_first (not_mem_append hgap (by decide)) hb1 hfirst
      have hodd : '"' ∈ b2 := by
        by_contra hnot
        rw [List.count_append, List.count_eq_zero_of_not_mem hb1, List.count_cons_self,
          List.count_eq_zero_of_not_mem hnot] at heven
        exact absurd heven (by decide)
      obtain ⟨b3, b4, rfl, hb3⟩ := List.eq_append_cons_of_mem hodd
      have hsecond : T.label ++ '"' :: (',' :: (w ++ (T.body ++ ')' :: rest))) =
          b3 ++ '"' :: (b4 ++ (opening ++ (label ++ ('"' :: ',' :: (between ++ u))))) := by
        rw [htail, append_assoc, cons_append]
      obtain ⟨-, hclose⟩ := eq_of_first hTlabel hb3 hsecond
      -- the call of the place is not begun within the call of the first tier
      have hpart : (',' :: (w ++ T.body)) ++ ')' :: rest =
          b4 ++ (opening ++ (label ++ ('"' :: ',' :: (between ++ u)))) := by
        rw [← hclose, List.cons_append, List.append_assoc]
      rcases append_part_cases hpart opening_paren (by decide) with ⟨b5, rfl, hrest'⟩ | ⟨v', hinside, -⟩
      · refine (ih hrest ⟨b5, label, between, u, hrest', ?_, hlabel, hquote, hparen, hlast, hlongest⟩).imp
          fun T' hT' => ⟨List.mem_cons_of_mem T hT'.1, hT'.2⟩
        have hb5 : (b1 ++ '"' :: (b3 ++ '"' :: ((',' :: (w ++ T.body)) ++ ')' :: b5))).count '"' = 2 + b5.count '"' := by
          rw [List.count_append, List.count_cons_self, List.count_append, List.count_cons_self, List.count_append,
            List.count_cons_of_ne (by decide), List.count_append, List.count_cons_of_ne (by decide),
            List.count_eq_zero_of_not_mem hb1, List.count_eq_zero_of_not_mem hb3,
            List.count_eq_zero_of_not_mem (white_no_quote hw), List.count_eq_zero_of_not_mem (body_no_quote T.isBody)]
          omega
        rw [hb5, Nat.even_add] at heven
        exact heven.1 even_two
      · have hmem : '"' ∈ ',' :: (w ++ T.body) := by
          rw [hinside]
          exact mem_append_right _ (mem_append_left _ (by decide))
        rcases mem_cons.1 hmem with hmem | hmem
        · exact absurd hmem (by decide)
        · exact absurd hmem (not_mem_append (white_no_quote hw) (body_no_quote T.isBody))
    · obtain ⟨w, ht, -, -⟩ := id hcall
      rw [ht] at heq
      obtain ⟨rfl, htail⟩ := opening_unique hgap hbefore heq
      obtain ⟨i, hi, hmore⟩ := hcall.item (by rw [ht, htail]) hlabel hparen hlast hlongest
      exact ⟨T, mem_cons_self, i, hi, hmore⟩

/-! ## The prices of one tier -/

section

variable {F : Type} (N : JsNumbers F)

/-- The price of a variable in a tier of the editor. -/
def VisualTier.price (tier : VisualTier F) : PricedVar → Num F
  | .p => tier.input_unit_cost
  | .c => tier.output_unit_cost
  | v => (tier.cost v).getD none

/-- The display shows the label, the conditions and the nine prices of a tier. -/
structure SameTier (d : ParsedTier F) (tier : VisualTier F) : Prop where
  label      : d.label = tier.label
  conditions : tier.conditions = d.conditions.map fun c => ⟨c.var, c.op, .number c.value⟩
  price      : ∀ v, tier.price v = some (d.price v)

/-- The price that the editor has for what it reads as a number. -/
def editorPrice (v : PricedVar) (x : Num F) : Num F := if v = .p ∨ v = .c then x else some (N.orZero x)

/-- The display and the editor have the same price for an item. -/
def Item.Fair (i : Item) : Prop :=
  (i.glued = true → N.number i.number = none ∨ N.number i.number = some N.zero) ∧
    (i.name = .p ∨ i.name = .c → N.number i.number ≠ none)

theorem some_orZero_iff {x : Num F} : x = some (N.orZero x) ↔ x ≠ none := by
  cases x with
  | none =>
    constructor
    · intro h
      cases h
    · intro h
      exact absurd rfl h
  | some y => exact ⟨fun _ => Option.some_ne_none y, fun _ => rfl⟩

theorem orZero_eq_zero_iff {x : Num F} : N.orZero x = N.zero ↔ x = none ∨ x = some N.zero := by
  cases x with
  | none => exact ⟨fun _ => Or.inl rfl, fun _ => rfl⟩
  | some y =>
    show y = N.zero ↔ _
    rw [Option.some.injEq]
    exact ⟨Or.inr, fun h => h.elim (fun h => by cases h) id⟩

/-- With the plus sign taken, the display has zero for a price. -/
theorem fair_iff (i : Item) :
    editorPrice N i.name (N.number i.number) = some (N.orZero (N.number i.run)) ↔ i.Fair N := by
  unfold editorPrice Item.Fair Item.run
  by_cases hname : i.name = .p ∨ i.name = .c
  · rw [if_pos hname]
    cases hglued : i.glued with
    | false =>
      rw [if_neg Bool.false_ne_true, some_orZero_iff]
      exact ⟨fun h => ⟨fun hf => Bool.noConfusion hf, fun _ => h⟩, fun h => h.2 hname⟩
    | true =>
      rw [if_pos rfl, number_plus]
      constructor
      · intro h
        exact ⟨fun _ => Or.inr h, fun _ hnone => by rw [hnone] at h; cases h⟩
      · rintro ⟨hzero, hnumber⟩
        exact (hzero rfl).resolve_left (hnumber hname)
  · rw [if_neg hname, Option.some.injEq]
    cases hglued : i.glued with
    | false =>
      rw [if_neg Bool.false_ne_true]
      exact ⟨fun _ => ⟨fun hf => Bool.noConfusion hf, fun h => absurd h hname⟩, fun _ => rfl⟩
    | true =>
      rw [if_pos rfl, number_plus]
      show _ = N.zero ↔ _
      rw [orZero_eq_zero_iff]
      exact ⟨fun h => ⟨fun _ => h, fun h' => absurd h' hname⟩, fun h => h.1 rfl⟩

theorem present_names (vs : List PricedVar) (cache : List (Option Text)) :
    ((present vs cache).map Prod.fst).Sublist vs := by
  induction vs generalizing cache with
  | nil => exact List.Sublist.refl []
  | cons v _ ih =>
    cases cache with
    | nil => exact nil_sublist _
    | cons o cache =>
      cases o with
      | none => exact (ih cache).cons v
      | some => exact (ih cache).cons_cons v

theorem present_find {vs : List PricedVar} (hnodup : vs.Nodup) (cache : List (Option Text)) (v : PricedVar) :
    (present vs cache).find? (fun q => q.1 = v) = (((vs.zip cache).lookup v).getD none).map fun n => (v, n) := by
  induction vs generalizing cache with
  | nil => rfl
  | cons w vs ih =>
    cases cache with
    | nil => rfl
    | cons o cache =>
      obtain ⟨hnot, hnodup⟩ := nodup_cons.1 hnodup
      rw [zip_cons_cons]
      by_cases hv : v = w
      · subst hv
        rw [lookup_cons_self, Option.getD_some]
        cases o with
        | some n =>
          show find? _ ((v, n) :: present vs cache) = _
          rw [find?_cons_of_pos (by simp)]
          rfl
        | none =>
          show find? _ (present vs cache) = none
          rw [find?_eq_none]
          intro q hq hname
          refine hnot ((present_names vs cache).subset ?_)
          rw [← of_decide_eq_true hname]
          exact mem_map_of_mem hq
      · have hlookup : lookup v ((w, o) :: vs.zip cache) = (vs.zip cache).lookup v := by
          rw [lookup_cons, beq_eq_false_iff_ne.2 hv]
        rw [hlookup, ← ih hnodup cache]
        cases o with
        | some n =>
          show find? _ ((w, n) :: present vs cache) = _
          rw [find?_cons_of_neg (by simpa using Ne.symm hv)]
        | none => rfl

/-- The names of the prices of a tier are distinct. -/
theorem Captures.nodup {T : TierText} {m : Text × Text × Text × List (Option Text)} (h : Captures T m) :
    (T.items.map name).Nodup := by
  have hnames : T.items.map name = (T.items.map pair).map Prod.fst := by
    rw [map_map]
    rfl
  rw [hnames, h.2.1, map_cons, map_cons]
  have hall : PricedVar.all.Nodup := by decide
  exact hall.sublist (((present_names billingCacheVars m.2.2.2).cons_cons _).cons_cons _)

theorem find_of_mem {is : List Item} (hnodup : (is.map name).Nodup) {i : Item} (hi : i ∈ is) :
    is.find? (fun j => j.name = i.name) = some i := by
  induction is with
  | nil => cases hi
  | cons j _ ih =>
    rw [map_cons, nodup_cons] at hnodup
    rcases mem_cons.1 hi with rfl | hi
    · rw [find?_cons_of_pos (by simp)]
    · have hne : j.name ≠ i.name := by
        intro heq
        exact hnodup.1 (heq ▸ mem_map_of_mem hi)
      rw [find?_cons_of_neg (by simpa using hne), ih hnodup.2 hi]

/-- The price that the display has for a variable. -/
theorem shown_price (T : TierText) (v : PricedVar) :
    parseTierBody N T.body v = N.orZero ((T.items.find? fun i => i.name = v).bind fun i => N.number i.run) := by
  unfold parseTierBody
  rw [scan_body T.isBody, find?_map]
  cases h : find? ((fun m : PricedVar × Text => decide (m.1 = v)) ∘ fun i : Item => (i.name, i.run)) T.items with
  | none =>
    have h' : (T.items.find? fun i => i.name = v) = none := h
    rw [h']
    rfl
  | some i =>
    have h' : (T.items.find? fun i => i.name = v) = some i := h
    rw [h']
    rfl

/-- The price that the editor has for a variable. -/
theorem kept_price {T : TierText} {m : Option Text × Text × Text × Text × List (Option Text)} (h : Captures T m.2)
    (v : PricedVar) :
    (keptTier N m).price v = editorPrice N v ((T.items.find? fun i => i.name = v).bind fun i => N.number i.number) := by
  have hfind : ∀ q, (T.items.map pair).find? (fun q => q.1 = v) = q →
      ((T.items.find? fun i => i.name = v).bind fun i => N.number i.number) = q.bind fun q => N.number q.2 := by
    rintro q rfl
    rw [find?_map]
    have hcomp : ((fun q : PricedVar × Text => decide (q.1 = v)) ∘ pair) = fun i => decide (i.name = v) := rfl
    rw [hcomp, Option.bind_map]
    rfl
  have hcache : v ≠ .p → v ≠ .c → (T.items.map pair).find? (fun q => q.1 = v) =
      (((billingCacheVars.zip m.2.2.2.2).lookup v).getD none).map fun n => (v, n) := by
    intro hp hc
    rw [h.2.1, find?_cons_of_neg (by simpa using Ne.symm hp), find?_cons_of_neg (by simpa using Ne.symm hc)]
    exact present_find (by decide) _ v
  by_cases hp : v = .p
  · subst hp
    have hq : (T.items.map pair).find? (fun q => q.1 = PricedVar.p) = some (.p, m.2.2.1) := by
      rw [h.2.1, find?_cons_of_pos (by simp)]
    rw [hfind _ hq]
    rfl
  · by_cases hc : v = .c
    · subst hc
      have hq : (T.items.map pair).find? (fun q => q.1 = PricedVar.c) = some (.c, m.2.2.2.1) := by
        rw [h.2.1, find?_cons_of_neg (by simp), find?_cons_of_pos (by simp)]
      rw [hfind _ hq]
      rfl
    · rw [hfind _ (hcache hp hc), editorPrice, if_neg (not_or.2 ⟨hp, hc⟩)]
      have hprice : (keptTier N m).price v = some (N.orZero ((cacheCost N m.2.2.2.2 v).getD none)) := by
        cases v <;> first | exact absurd rfl hp | exact absurd rfl hc | rfl
      rw [hprice, cacheCost]
      cases ((billingCacheVars.zip m.2.2.2.2).lookup v).getD none with
      | none => rfl
      | some => rfl

/-- The display shows a tier of the editor if and only if each of its prices is fair. -/
theorem sameTier_iff {T : TierText} {m : Option Text × Text × Text × Text × List (Option Text)} (hcond : m.1 = T.cond)
    (h : Captures T m.2) :
    SameTier (parsedTier N (T.cond, T.label, T.body)) (keptTier N m) ↔ ∀ i ∈ T.items, i.Fair N := by
  constructor
  · intro hsame i hi
    have hprice := hsame.price i.name
    have hshown : (parsedTier N (T.cond, T.label, T.body)).price i.name = parseTierBody N T.body i.name := rfl
    rw [kept_price N h, hshown, shown_price, find_of_mem h.nodup hi] at hprice
    exact (fair_iff N i).1 hprice
  · intro hfair
    refine ⟨h.1.symm, ?_, fun v => ?_⟩
    · show (parseConditions N (m.1.getD [])).map _ = _
      rw [hcond]
      rfl
    · have hshown : (parsedTier N (T.cond, T.label, T.body)).price v = parseTierBody N T.body v := rfl
      rw [kept_price N h, hshown, shown_price]
      cases hfind : T.items.find? fun i => i.name = v with
      | some i =>
        have hname := find?_some hfind
        obtain rfl : i.name = v := of_decide_eq_true hname
        exact (fair_iff N i).2 (hfair i (mem_of_find?_eq_some hfind))
      | none =>
        -- the prices of p and c are always there
        have hno : ∀ i ∈ T.items, i.name ≠ v := by
          intro i hi hname
          exact find?_eq_none.1 hfind i hi (decide_eq_true hname)
        have hnot : ¬ (v = .p ∨ v = .c) := by
          have hall : ∀ q ∈ T.items.map pair, q.1 ≠ v := by
            intro q hq
            obtain ⟨i, hi, rfl⟩ := mem_map.1 hq
            exact hno i hi
          rw [h.2.1] at hall
          rintro (rfl | rfl)
          · exact hall _ mem_cons_self rfl
          · exact hall _ (mem_cons_of_mem _ mem_cons_self) rfl
        rw [editorPrice, if_neg hnot]
        rfl

/-! ## The condition on the text -/

/-- The numeral of a price without the plus sign that belongs to the next one. -/
def ownNumeral (numeral behind : Text) : Text := if isGlued numeral behind then numeral.dropLast else numeral

/-- No price that is a number other than zero has the plus sign directly behind it, and the prices of `p` and `c` are
numbers. -/
def PricesApart (expr : Text) : Prop :=
  ∀ v numeral behind, PriceAt expr v numeral behind → (isGlued numeral behind = true →
      N.number (ownNumeral numeral behind) = none ∨ N.number (ownNumeral numeral behind) = some N.zero) ∧
    (v = .p ∨ v = .c → N.number (ownNumeral numeral behind) ≠ none)

theorem ownNumeral_run {i : Item} {behind : Text} (h : isGlued i.run behind = i.glued) :
    ownNumeral i.run behind = i.number := by
  unfold ownNumeral Item.run
  unfold Item.run at h
  cases hglued : i.glued with
  | true =>
    rw [hglued, if_pos rfl] at h
    rw [if_pos rfl, h, if_pos rfl, dropLast_concat]
  | false =>
    rw [hglued, if_neg Bool.false_ne_true] at h
    rw [if_neg Bool.false_ne_true, h, if_neg Bool.false_ne_true]

theorem pricesApart_iff {Ts : List TierText} {expr : Text} (h : Tiers Ts expr) :
    PricesApart N expr ↔ ∀ T ∈ Ts, ∀ i ∈ T.items, i.Fair N := by
  constructor
  · intro happart T hT i hi
    obtain ⟨behind, hprice, hglued⟩ := tiers_place h T hT i hi
    have hfair := happart i.name i.run behind hprice
    rw [ownNumeral_run hglued, hglued] at hfair
    exact hfair
  · intro hfair v numeral behind hprice
    obtain ⟨T, hT, i, hi, rfl, rfl, hglued⟩ := tiers_item h hprice
    rw [ownNumeral_run hglued, hglued]
    exact hfair T hT i hi

theorem forall₂_same {Ts : List TierText} {ms : List (Option Text × Text × Text × Text × List (Option Text))}
    (h : List.Forall₂ (fun m T => m.1 = T.cond ∧ Captures T m.2) ms Ts) :
    List.Forall₂ SameTier (Ts.map fun T => parsedTier N (T.cond, T.label, T.body)) (ms.map (keptTier N)) ↔
      ∀ T ∈ Ts, ∀ i ∈ T.items, i.Fair N := by
  induction h with
  | nil => exact ⟨fun _ T hT => absurd hT not_mem_nil, fun _ => List.Forall₂.nil⟩
  | cons hm _ ih =>
    rw [map_cons, map_cons, forall₂_cons, ih, sameTier_iff N hm.1 hm.2, forall_mem_cons]

/-- The display shows what the editor has, if and only if the prices of the text are apart. -/
theorem displayed_iff [DecidableEq F] {expr : Text} {cfg : List (VisualTier F)} (h : tryParseVisualConfig N expr = some cfg) :
    List.Forall₂ SameTier (parseTiersFromExpr N expr) cfg ↔ PricesApart N expr := by
  obtain ⟨Ts, ms, hTs, hms, rfl, hshown⟩ := accepted_tiers N h
  rw [hshown, forall₂_same N hms, pricesApart_iff N hTs]

theorem shown_prices {ds : List (ParsedTier F)} {ts : List (VisualTier F)} (h : List.Forall₂ SameTier ds ts)
    (v : PricedVar) : ts.map (fun t => t.price v) = ds.map fun d => some (d.price v) := by
  induction h with
  | nil => rfl
  | cons hd _ ih => rw [map_cons, map_cons, hd.price v, ih]

end

/-! ## A price with the plus sign behind it -/

/-- Numbers that are not rounded; a whole number has its digits as its text. -/
def exactNumbers : JsNumbers ℚ where
  zero := 0
  round := id
  text x := (if x.num < 0 then ['-'] else []) ++ (Nat.toDigits 10 x.num.natAbs ++
    if x.den = 1 then [] else '/' :: Nat.toDigits 10 x.den)
  text_plain x := by
    have hdigits : ∀ n, '"' ∉ Nat.toDigits 10 n := fun n hmem =>
      absurd (Nat.isDigit_of_mem_toDigits (by decide) (by decide) hmem) (by decide)
    refine List.not_mem_append ?_ (List.not_mem_append (hdigits _) ?_)
    · split <;> decide
    · split
      · exact List.not_mem_nil
      · exact fun hmem => (List.mem_cons.1 hmem).elim (by decide) (hdigits _)

/-- The plus sign stands directly behind the price of `p`. -/
def plusBehind : Text := "tier(\"base\", p * 3+c * 15)".toList

theorem plusBehind_accepted :
    tryParseVisualConfig exactNumbers plusBehind = some ((tryParseVisualConfig exactNumbers plusBehind).getD []) := by
  have hsome : (tryParseVisualConfig exactNumbers plusBehind).isSome = true := by decide +kernel
  obtain ⟨cfg, hcfg⟩ := Option.isSome_iff_exists.1 hsome
  rw [hcfg]
  rfl

theorem displayed_iff_plusBehind : List.Forall₂ SameTier (parseTiersFromExpr exactNumbers plusBehind)
        ((tryParseVisualConfig exactNumbers plusBehind).getD []) ↔ PricesApart exactNumbers plusBehind :=
  displayed_iff exactNumbers plusBehind_accepted

/-- The editor accepts the text and has the price 3, which is displayed as 0. -/
theorem plusBehind_shown :
    tryParseVisualConfig exactNumbers plusBehind = some ((tryParseVisualConfig exactNumbers plusBehind).getD []) ∧
      ((tryParseVisualConfig exactNumbers plusBehind).getD []).map (fun t => t.price .p) = [some 3] ∧
      (parseTiersFromExpr exactNumbers plusBehind).map (fun d => d.price .p) = [0] ∧
      ¬ List.Forall₂ SameTier (parseTiersFromExpr exactNumbers plusBehind)
        ((tryParseVisualConfig exactNumbers plusBehind).getD []) := by
  have hkept : ((tryParseVisualConfig exactNumbers plusBehind).getD []).map (fun t => t.price .p) = [some 3] := by
    decide +kernel
  have hshown : (parseTiersFromExpr exactNumbers plusBehind).map (fun d => d.price .p) = [0] := by decide +kernel
  refine ⟨plusBehind_accepted, hkept, hshown, fun h => ?_⟩
  have hprices := shown_prices h .p
  have hsome : (parseTiersFromExpr exactNumbers plusBehind).map (fun d => some (d.price .p)) =
      ((parseTiersFromExpr exactNumbers plusBehind).map fun d => d.price .p).map some := by
    rw [map_map]
    rfl
  rw [hkept, hsome, hshown] at hprices
  exact absurd hprices (by decide +kernel)

end NovaMaas.Pricing
