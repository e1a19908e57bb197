/-
  When request rules come back from their text.

  Groups and conditions are taken apart before they are read.  So rules come back if and only if every condition does by
  itself and the texts are taken apart where they were joined (`roundTrip_iff`): a part that is read as the condition or as
  the group it should be is the text of this condition or group (`part_eq`, `factor_eq`), and `cut_reads` gives the places.
-/
import NovaMaas.Pricing.RuleConditions

open List hiding mem_map

namespace NovaMaas.Pricing

open Pattern Places

/-! ## Reading one part after the other -/

theorem readParts_iff {α : Type} {read : Text → Except Unit (Option α)} {parts : List Text} {as : List α} :
    readParts read parts = .ok (some as) ↔ List.Forall₂ (fun part a => read part = .ok (some a)) parts as := by
  induction parts generalizing as with
  | nil =>
    constructor
    · intro h
      cases h
      exact List.Forall₂.nil
    · intro h
      cases h
      rfl
  | cons part parts ih =>
    unfold readParts
    cases hread : read part with
    | error =>
      refine ⟨fun h => (by cases h), fun h => ?_⟩
      obtain ⟨a, as', ha, -, -⟩ := forall₂_cons_left_iff.1 h
      rw [hread] at ha
      cases ha
    | ok r =>
      cases r with
      | none =>
        refine ⟨fun h => (by cases h), fun h => ?_⟩
        obtain ⟨a, as', ha, -, -⟩ := forall₂_cons_left_iff.1 h
        rw [hread] at ha
        cases ha
      | some =>
        constructor
        · intro h
          cases hmore : readParts read parts with
          | error =>
            simp only [hmore] at h
            cases h
          | ok r =>
            cases r with
            | none =>
              simp only [hmore] at h
              cases h
            | some =>
              simp only [hmore] at h
              cases h
              exact List.Forall₂.cons hread (ih.1 hmore)
        · intro h
          obtain ⟨b, as', hb, hmore, rfl⟩ := forall₂_cons_left_iff.1 h
          rw [hread] at hb
          cases hb
          simp only [ih.2 hmore]

section

variable (structured : Structured)

theorem tryParseRequestConditions_iff {s : Text} {cs : List RequestCondition} :
    tryParseRequestConditions structured s = .ok (some cs) ↔ cs ≠ [] ∧
      List.Forall₂ (fun part c => tryParseRequestCondition structured (trim part) = .ok (some c))
        (splitTopLevelAnd s) cs := by
  rw [← readParts_iff]
  unfold tryParseRequestConditions
  cases readParts (fun part => tryParseRequestCondition structured (trim part)) (splitTopLevelAnd s) with
  | error => exact ⟨fun h => (by cases h), fun h => h.2⟩
  | ok r =>
    cases r with
    | none => exact ⟨fun h => (by cases h), fun h => h.2⟩
    | some as =>
      cases as with
      | nil =>
        refine ⟨fun h => (by cases h), fun h => ?_⟩
        obtain ⟨hne, heq⟩ := h
        cases heq
        exact absurd rfl hne
      | cons =>
        constructor
        · intro h
          cases h
          exact ⟨cons_ne_nil _ _, rfl⟩
        · intro h
          exact h.2

end

/-! ## A factor -/

theorem mem_ruleFactor {s : Text} {m : Text × Text} : (m, []) ∈ ruleFactor.run s ↔ m.1 ≠ [] ∧ Numeral m.2 ∧
      s = '(' :: (m.1 ++ (" ? ".toList ++ (m.2 ++ " : 1)".toList))) := by
  simp only [ruleFactor, mem_andThen, mem_map, mem_lit, exists_const, mem_atLeastOne, mem_numeral, append_nil]
  constructor
  · rintro ⟨_, rfl, conditions, _, ⟨rfl, hne, -⟩, _, rfl, multiplier, _, ⟨rfl, hnumeral⟩, rfl, rfl⟩
    exact ⟨hne, hnumeral, rfl⟩
  · rintro ⟨hne, hnumeral, rfl⟩
    exact ⟨_, rfl, m.1, _, ⟨rfl, hne, fun _ _ => trivial⟩, _, rfl, m.2, _, ⟨rfl, hnumeral⟩, rfl, rfl⟩

/-- A factor is read in one way: behind the last blank but two stands the multiplier. -/
theorem ruleFactor_unique {a b m n : Text} (hm : Numeral m) (hn : Numeral n)
    (h : a ++ (" ? ".toList ++ (m ++ " : 1)".toList)) = b ++ (" ? ".toList ++ (n ++ " : 1)".toList))) :
    a = b ∧ m = n := by
  have hsplit : ∀ u v : Text, u ++ (" ? ".toList ++ (v ++ " : 1)".toList)) = ((u ++ " ? ".toList) ++ v) ++ " : 1)".toList := by
    intro u v
    simp only [append_assoc]
  rw [hsplit, hsplit] at h
  have hcancel := append_cancel_right h
  have hlast : ∀ u : Text, (u ++ " ? ".toList).getLast?.any isNumeral = false := by
    intro u
    rw [getLast?_append]
    rfl
  obtain ⟨hleft, hright⟩ := eq_of_ending (hlast a) (hlast b) hm.2 hn.2 hcancel
  exact ⟨append_cancel_right hleft, hright⟩

theorem ruleFactor_execWhole {s conditions multiplier : Text} (hne : conditions ≠ []) (hm : Numeral multiplier)
    (hs : s = '(' :: (conditions ++ (" ? ".toList ++ (multiplier ++ " : 1)".toList)))) :
    ruleFactor.execWhole s = some (conditions, multiplier) := by
  have hmem : ((conditions, multiplier), []) ∈ ruleFactor.run s := mem_ruleFactor.2 ⟨hne, hm, hs⟩
  obtain ⟨m, hsome⟩ := Option.ne_none_iff_exists'.1 (execWhole_ne_none hmem)
  obtain ⟨hne', hm', hs'⟩ := mem_ruleFactor.1 (execWhole_some hsome)
  obtain ⟨h1, h2⟩ := ruleFactor_unique hm' hm (cons.inj (hs'.symm.trans hs)).2
  rw [hsome]
  exact congrArg some (Prod.ext h1 h2)

section

variable (structured : Structured)

/-- What is read as a group. -/
theorem tryParseRuleGroupFactor_iff {s : Text} {g : RequestRuleGroup} :
    tryParseRuleGroupFactor structured s = .ok (some g) ↔ ∃ conditions : Text, conditions ≠ [] ∧ Numeral g.multiplier ∧
      s = '(' :: (conditions ++ (" ? ".toList ++ (g.multiplier ++ " : 1)".toList))) ∧
        tryParseRequestConditions structured conditions = .ok (some g.conditions) := by
  unfold tryParseRuleGroupFactor
  constructor
  · intro h
    cases hexec : ruleFactor.execWhole s with
    | none =>
      rw [hexec] at h
      cases h
    | some m =>
      simp only [hexec] at h
      obtain ⟨hne, hm, hs⟩ := mem_ruleFactor.1 (execWhole_some hexec)
      cases hread : tryParseRequestConditions structured m.1 with
      | error =>
        simp only [hread] at h
        cases h
      | ok r =>
        cases r with
        | none =>
          simp only [hread] at h
          cases h
        | some =>
          simp only [hread] at h
          cases h
          exact ⟨m.1, hne, hm, hs, hread⟩
  · rintro ⟨conditions, hne, hm, hs, hread⟩
    simp only [ruleFactor_execWhole hne hm hs, hread]

end

/-! ## The texts that are joined -/

theorem includes_append (part u v : Text) : includes part (u ++ (part ++ v)) = true := by
  have hhere : includes part (part ++ v) = true := by
    cases hp : part ++ v with
    | nil =>
      rw [(append_eq_nil_iff.1 hp).1]
      rfl
    | cons =>
      unfold includes
      rw [← hp, isPrefixOf_iff_prefix.2 ⟨v, rfl⟩, Bool.true_or]
  induction u with
  | nil => exact hhere
  | cons _ _ ih =>
    rw [cons_append]
    unfold includes
    rw [ih, Bool.or_true]

/-- The text does not end with a blank or an ampersand. -/
def EndsWell (t : Text) : Prop := ∃ u v, t = u ++ v ∧ v ≠ [] ∧ ∀ c ∈ v, c ≠ '&' ∧ isBlank c = false

variable {t : Text}

theorem EndsWell.last (h : EndsWell t) : ∃ c, t.getLast? = some c ∧ c ≠ '&' ∧ isBlank c = false := by
  obtain ⟨u, v, rfl, hne, hall⟩ := h
  cases hl : v.getLast? with
  | none => exact absurd (getLast?_eq_none_iff.1 hl) hne
  | some c =>
    refine ⟨c, ?_, hall c (mem_of_getLast? hl)⟩
    rw [getLast?_append, hl]
    rfl

theorem EndsWell.append (h : EndsWell t) (w : Text) : EndsWell (w ++ t) := by
  obtain ⟨u, v, rfl, hne, hall⟩ := h
  exact ⟨w ++ u, v, (append_assoc _ _ _).symm, hne, hall⟩

theorem endsWell_of_all (hne : t ≠ []) (h : ∀ c ∈ t, c ≠ '&' ∧ isBlank c = false) : EndsWell t :=
  ⟨[], t, rfl, hne, h⟩

theorem endsWell_char {c : Char} (h : c ≠ '&' ∧ isBlank c = false) : EndsWell [c] := by
  refine endsWell_of_all (cons_ne_nil _ _) fun d hd => ?_
  rw [mem_singleton.1 hd]
  exact h

theorem Numeral.endsWell {n : Text} (h : Numeral n) : EndsWell n := by
  refine endsWell_of_all h.1 fun c hc => ?_
  have hnumeral := h.2 c hc
  refine ⟨?_, not_blank_numeral hnumeral⟩
  rintro rfl
  exact absurd hnumeral (by decide)

theorem EndsWell.called {word path rest : Text} (h : EndsWell rest) : EndsWell (called word path rest) := by
  have hsplit : NovaMaas.Pricing.called word path rest = NovaMaas.Pricing.called word path [] ++ rest := by
    rw [called_append]
    rfl
  rw [hsplit]
  exact h.append _

theorem buildExprLiteral_endsWell (value : Text) : EndsWell (buildExprLiteral .eq value) := by
  rcases buildExprLiteral_cases value with ⟨heq, hwords⟩ | ⟨heq, -⟩
  · rw [heq]
    rcases hwords with h | h | h
    · rw [h]
      exact (endsWell_char (by decide)).append ['t', 'r', 'u']
    · rw [h]
      exact (endsWell_char (by decide)).append ['f', 'a', 'l', 's']
    · exact (numeral_of_literal h).endsWell
  · rw [heq]
    unfold jsonStringify
    rw [← cons_append]
    exact (endsWell_char (by decide)).append _

variable {c : RequestCondition}

/-- A condition ends well, as it is written. -/
theorem shapeText_endsWell (hc : Complete c) (p : Text) (parens : Bool) : EndsWell ((shapeOf p parens c).text p) := by
  refine hc.cases (P := fun c => EndsWell ((shapeOf p parens c).text p)) ?_ ?_ ?_ ?_ ?_ ?_
  · intro source path value _
    cases source with
    | param => exact EndsWell.called ((endsWell_char (by decide)).append [' ', '!', '=', ' ', 'n', 'i'])
    | header => exact EndsWell.called ((endsWell_char (by decide)).append [' ', '!', '=', ' ', '"'])
  · intro source path value _
    have hparen : EndsWell ([')'] : Text) := endsWell_char (by decide)
    cases source with
    | param => exact EndsWell.called ((EndsWell.called ((hparen.append _).append _)).append _)
    | header => exact EndsWell.called ((hparen.append _).append _)
  · intro path mode value _ hmode hnumber
    rw [shapeOf_compare hmode]
    have hvalue := (numeral_of_literal hnumber).endsWell
    exact EndsWell.called ((EndsWell.called (((hvalue.append [' ']).append mode.op).append [' '])).append _)
  · intro source path value _
    rw [shapeOf_eq]
    exact EndsWell.called ((buildExprLiteral_endsWell value).append _)
  · intro f zone value a b _ _ hb
    have hend : EndsWell (trim b ++ if parens then [')'] else []) := by
      cases parens with
      | true => exact (endsWell_char (by decide)).append _
      | false =>
        show EndsWell (trim b ++ [])
        rw [List.append_nil]
        exact (numeral_of_literal hb).endsWell
    exact EndsWell.called (((((((hend.append "\") < ".toList).append p).append ['(', '"']).append f.key).append
      " || ".toList).append (trim a)).append " >= ".toList)
  · intro f zone mode value a b _ hmode hnumber
    rw [shapeOf_single hmode]
    have hvalue := (numeral_of_literal hnumber).endsWell
    exact EndsWell.called (((hvalue.append [' ']).append mode.op).append [' '])

theorem shapeText_head (σ : Shape) (p : Text) : (σ.text p).head?.any isBlank = false := by
  have hword : σ.word ≠ [] ∧ σ.word.head?.any isBlank = false := by
    rw [σ.word_eq]
    cases σ.kind with
    | time f => cases f <;> exact ⟨List.cons_ne_nil _ _, by decide⟩
    | paren => exact ⟨List.cons_ne_nil _ _, rfl⟩
    | request source => cases source <;> exact ⟨List.cons_ne_nil _ _, by decide⟩
    | hasHeader => exact ⟨List.cons_ne_nil _ _, by decide⟩
  unfold Shape.text called
  rw [head_append hword.1]
  exact hword.2

theorem EndsWell.tight (h : EndsWell t) (hhead : t.head?.any isBlank = false) : Tight t := by
  obtain ⟨c, hlast, -, hblank⟩ := h.last
  refine ⟨?_, hhead, by rw [hlast]; exact hblank⟩
  rintro rfl
  cases hlast

/-- How a condition is written in a group: in its shape, or in parentheses that belong to no shape. -/
inductive Printed (parens : Bool) (c : RequestCondition) (t : Text) : Prop
  | shape (h : t = (shapeOf c.written parens c).text c.written)
  | wrapped (hnot : c.isRange = false) (h : t = '(' :: ((shapeOf c.written false c).text c.written ++ [')']))

theorem Printed.endsWell {parens : Bool} (hc : Complete c) (h : Printed parens c t) : EndsWell t := by
  cases h with
  | shape h =>
    rw [h]
    exact shapeText_endsWell hc _ _
  | wrapped _ h =>
    rw [h, ← List.cons_append]
    exact (endsWell_char (by decide)).append _

theorem Printed.tight {parens : Bool} (hc : Complete c) (h : Printed parens c t) : Tight t := by
  refine (h.endsWell hc).tight ?_
  cases h with
  | shape h =>
    rw [h]
    exact shapeText_head _ _
  | wrapped _ h =>
    rw [h]
    rfl

/-! ## Groups -/

/-- Complete conditions and a multiplier that is a numeric literal. -/
structure CompleteGroup (g : RequestRuleGroup) : Prop where
  multiplier : isNumericLiteral g.multiplier = true
  conditions : ∀ c ∈ g.conditions, Complete c

def RequestRuleGroup.trimmed (g : RequestRuleGroup) : RequestRuleGroup :=
  ⟨g.conditions.map RequestCondition.trimmed, g.multiplier⟩

/-- Whether a condition has others beside it. -/
def RequestRuleGroup.beside (g : RequestRuleGroup) : Bool := decide (g.conditions.length ≠ 1)

/-- The texts of the conditions of a group. -/
def groupTexts (g : RequestRuleGroup) : List Text := g.conditions.map (condText g.beside)

/-- The conditions come back from their texts, and are taken apart where they were joined. -/
structure GroupWritable (g : RequestRuleGroup) : Prop where
  some_condition : g.conditions ≠ []
  writable       : ∀ c ∈ g.conditions, Writable c
  no_break       : g.beside = true → ∀ c ∈ g.conditions, c.isRange = false → includes " || ".toList (condText false c) = false
  apart          : Apart " && ".toList (groupTexts g)

def groupText (g : RequestRuleGroup) : Text :=
  '(' :: (join " && ".toList (groupTexts g) ++ (" ? ".toList ++ (g.multiplier ++ " : 1)".toList)))

theorem rest_parens (s a t k p u b : Text) : s ++ (a ++ (t ++ (k ++ ('(' :: '"' :: (p ++ (u ++ (b ++ [')']))))))) =
    s ++ (a ++ (t ++ (k ++ ('(' :: '"' :: (p ++ (u ++ (b ++ []))))))) ++ [')'] := by
  simp only [List.append_assoc, List.cons_append, List.append_nil]

theorem range_parens (h : c.isRange = true) (p : Text) :
    (shapeOf p true c).text p = '(' :: ((shapeOf p false c).text p ++ [')']) := by
  cases c with
  | paramHeader => cases h
  | time f _ mode _ a b =>
    cases mode with
    | range =>
      have hrest : (Shape.range f (trim a) (trim b) true).rest p =
          (Shape.range f (trim a) (trim b) false).rest p ++ [')'] := rest_parens _ _ _ _ _ _ _
      show called ('(' :: f.key) p ((Shape.range f (trim a) (trim b) true).rest p) =
        '(' :: (called f.key p ((Shape.range f (trim a) (trim b) false).rest p) ++ [')'])
      rw [called_append, hrest]
      rfl
    | _ => cases h

theorem not_range_parens (h : c.isRange = false) (p : Text) : shapeOf p true c = shapeOf p false c := by
  cases c with
  | paramHeader source _ mode => cases source <;> cases mode <;> rfl
  | time _ _ mode =>
    cases mode with
    | range => cases h
    | _ => rfl

theorem range_breaks (h : c.isRange = true) (p : Text) :
    includes " || ".toList ((shapeOf p false c).text p) = true := by
  cases c with
  | paramHeader => cases h
  | time f _ mode _ a b =>
    cases mode with
    | range =>
      have hsplit : (Shape.range f (trim a) (trim b) false).text p = called f.key p (" >= ".toList ++ trim a) ++
          (" || ".toList ++ (f.key ++ ('(' :: '"' :: (p ++ ("\") < ".toList ++ (trim b ++ [])))))) := by
        rw [called_append]
        simp only [append_assoc]
        rfl
      show includes " || ".toList ((Shape.range f (trim a) (trim b) false).text p) = true
      rw [hsplit]
      exact includes_append _ _ _
    | _ => cases h

/-- A condition beside others. -/
theorem besideOthers_printed (hc : Complete c) : Printed true c (besideOthers (buildRequestConditionExpr c)) ∧
      (c.isRange = false → includes " || ".toList (buildRequestConditionExpr c) = true →
        besideOthers (buildRequestConditionExpr c) = '(' :: ((shapeOf c.written false c).text c.written ++ [')'])) := by
  rw [buildRequestConditionExpr_eq hc]
  unfold besideOthers
  cases hrange : c.isRange with
  | true =>
    rw [if_pos (range_breaks hrange _)]
    exact ⟨Printed.shape (range_parens hrange _).symm, fun h => by cases h⟩
  | false =>
    cases hor : includes " || ".toList ((shapeOf c.written false c).text c.written) with
    | true =>
      rw [if_pos rfl]
      exact ⟨Printed.wrapped hrange rfl, fun _ _ => rfl⟩
    | false =>
      rw [if_neg Bool.false_ne_true]
      exact ⟨Printed.shape (by rw [not_range_parens hrange]), fun _ h => by cases h⟩

/-- How a condition of a group is written. -/
def partOf (g : RequestRuleGroup) (c : RequestCondition) : Text :=
  if g.beside then besideOthers (buildRequestConditionExpr c) else buildRequestConditionExpr c

variable {g : RequestRuleGroup}

theorem partOf_printed (hc : Complete c) : Printed g.beside c (partOf g c) := by
  unfold partOf
  cases g.beside with
  | true => exact (besideOthers_printed hc).1
  | false => exact Printed.shape (buildRequestConditionExpr_eq hc)

theorem groupParts_eq (hg : CompleteGroup g) : groupParts g = g.conditions.map (partOf g) := by
  have hfilter : (g.conditions.map buildRequestConditionExpr).filter (fun e => e ≠ []) =
      g.conditions.map buildRequestConditionExpr := by
    refine filter_eq_self.2 fun e he => ?_
    obtain ⟨c, hc, rfl⟩ := List.mem_map.1 he
    have hcomplete := hg.conditions c hc
    have hprinted : Printed false c (buildRequestConditionExpr c) := Printed.shape (buildRequestConditionExpr_eq hcomplete)
    have htight := hprinted.tight hcomplete
    exact decide_eq_true htight.ne_nil
  unfold groupParts
  simp only [hfilter, length_map]
  by_cases hone : g.conditions.length = 1
  · rw [if_pos hone]
    refine map_congr_left fun c _ => ?_
    have hbeside : g.beside = false := by
      unfold RequestRuleGroup.beside
      rw [hone]
      rfl
    unfold partOf
    rw [hbeside]
    rfl
  · rw [if_neg hone, map_map]
    refine map_congr_left fun c _ => ?_
    have hbeside : g.beside = true := decide_eq_true hone
    unfold partOf
    rw [hbeside]
    rfl

/-- The parts of a group that comes back are the texts of its conditions. -/
theorem partOf_eq (hc : Complete c) (hw : Writable c)
    (hno : g.beside = true → c.isRange = false → includes " || ".toList (condText false c) = false) :
    partOf g c = condText g.beside c := by
  have hbuild := hw.buildRequestConditionExpr_eq hc
  unfold partOf
  cases hbeside : g.beside with
  | false => exact hbuild
  | true =>
    show besideOthers _ = _
    rw [hbuild]
    unfold besideOthers
    cases hrange : c.isRange with
    | true =>
      have hbreaks : includes " || ".toList (condText false c) = true := range_breaks hrange c.place
      rw [if_pos hbreaks]
      exact (range_parens hrange _).symm
    | false =>
      rw [hno hbeside hrange, if_neg Bool.false_ne_true]
      unfold condText
      rw [not_range_parens hrange]

theorem buildRuleGroupFactor_eq (hg : CompleteGroup g) (hne : g.conditions ≠ []) :
    buildRuleGroupFactor g = '(' :: (join " && ".toList (groupParts g) ++
      (" ? ".toList ++ (g.multiplier ++ " : 1)".toList))) := by
  have htrim : trim g.multiplier = g.multiplier := (numeral_of_literal hg.multiplier).tight.trim_eq
  have hparts : groupParts g ≠ [] := by
    rw [groupParts_eq hg]
    exact fun h => hne (map_eq_nil_iff.1 h)
  unfold buildRuleGroupFactor
  simp only [htrim, hg.multiplier, if_neg hparts, append_assoc]
  rfl

theorem splitTopLevel_join {sep : Text} (hsep : Separator sep) {ts : List Text} (hne : ts ≠ [])
    (htight : ∀ t ∈ ts, Tight t) (hlast : ∀ t ∈ ts, ∀ c ∈ t.getLast?, c ∉ sep) (happart : Apart sep ts) :
    splitTopLevel sep (join sep ts) = ts := by
  unfold splitTopLevel
  rw [cut_join hsep hne hlast happart]
  have hmap : ts.map trim = ts := by
    conv_rhs => rw [← map_id ts]
    exact map_congr_left fun t ht => (htight t ht).trim_eq
  rw [hmap]
  exact filter_eq_self.2 fun t ht => decide_eq_true (htight t ht).ne_nil

theorem endsWell_and (h : EndsWell t) : ∀ c ∈ t.getLast?, c ∉ " && ".toList := by
  obtain ⟨c, hlast, hand, hblank⟩ := h.last
  intro d hd hmem
  rw [hlast] at hd
  cases hd
  have hcases : c = ' ' ∨ c = '&' := by
    rcases mem_cons.1 hmem with h | h
    · exact Or.inl h
    rcases mem_cons.1 h with h | h
    · exact Or.inr h
    rcases mem_cons.1 h with h | h
    · exact Or.inr h
    exact Or.inl (mem_singleton.1 h)
  rcases hcases with rfl | rfl
  · exact absurd hblank (by decide)
  · exact hand rfl

theorem groupParts_tight (hg : CompleteGroup g) :
    ∀ t ∈ groupParts g, Tight t ∧ ∀ c ∈ t.getLast?, c ∉ " && ".toList := by
  intro t ht
  rw [groupParts_eq hg] at ht
  obtain ⟨c, hc, rfl⟩ := List.mem_map.1 ht
  have hcomplete := hg.conditions c hc
  have hprinted : Printed g.beside c (partOf g c) := partOf_printed hcomplete
  exact ⟨hprinted.tight hcomplete, endsWell_and (hprinted.endsWell hcomplete)⟩

theorem GroupWritable.groupParts_eq (hg : CompleteGroup g) (hw : GroupWritable g) : groupParts g = groupTexts g := by
  rw [NovaMaas.Pricing.groupParts_eq hg]
  refine map_congr_left fun c hc => ?_
  exact partOf_eq (hg.conditions c hc) (hw.writable c hc) fun hbeside hrange => hw.no_break hbeside c hc hrange

theorem GroupWritable.buildRuleGroupFactor_eq (hg : CompleteGroup g) (hw : GroupWritable g) :
    buildRuleGroupFactor g = groupText g := by
  rw [NovaMaas.Pricing.buildRuleGroupFactor_eq hg hw.some_condition, hw.groupParts_eq hg]
  rfl

theorem join_ne_nil {sep : Text} {ts : List Text} (hne : ts ≠ []) (hall : ∀ t ∈ ts, Tight t) : join sep ts ≠ [] := by
  cases ts with
  | nil => exact absurd rfl hne
  | cons t ts =>
    have ht := (hall t mem_cons_self).ne_nil
    cases ts with
    | nil => exact ht
    | cons t' ts =>
      show t ++ sep ++ join sep (t' :: ts) ≠ []
      intro hnil
      exact ht (append_eq_nil_iff.1 (append_eq_nil_iff.1 hnil).1).1

section

variable {structured : Structured}

variable {g : RequestRuleGroup}

/-- A group whose conditions come back and are apart comes back. -/
theorem tryParse_groupFactor (hg : CompleteGroup g) (hw : GroupWritable g) :
    tryParseRuleGroupFactor structured (buildRuleGroupFactor g) = .ok (some g.trimmed) := by
  have hparts := hw.groupParts_eq hg
  have htight := groupParts_tight hg
  rw [hparts] at htight
  have hne : groupTexts g ≠ [] := fun h => hw.some_condition (map_eq_nil_iff.1 h)
  rw [tryParseRuleGroupFactor_iff]
  refine ⟨_, join_ne_nil hne fun t ht => (htight t ht).1, numeral_of_literal hg.multiplier,
    hw.buildRuleGroupFactor_eq hg, ?_⟩
  rw [tryParseRequestConditions_iff]
  refine ⟨fun h => hw.some_condition (map_eq_nil_iff.1 h), ?_⟩
  have hsplit : splitTopLevelAnd (join " && ".toList (groupTexts g)) = groupTexts g :=
    splitTopLevel_join separator_and hne (fun t ht => (htight t ht).1) (fun t ht => (htight t ht).2) hw.apart
  rw [hsplit]
  show List.Forall₂ _ (g.conditions.map (condText g.beside)) (g.conditions.map RequestCondition.trimmed)
  rw [forall₂_map_left_iff, forall₂_map_right_iff, List.forall₂_same]
  intro c hc
  have hmem : condText g.beside c ∈ groupTexts g := List.mem_map.2 ⟨c, hc, rfl⟩
  rw [(htight _ hmem).1.trim_eq]
  exact tryParse_condText structured g.beside (hg.conditions c hc) (hw.writable c hc)

/-- A part that is read as a condition, and begins as it is written, is what is written. -/
theorem printed_eq {parens : Bool} {c : RequestCondition} {s t x y : Text} (hc : Complete c) (htight : Tight s)
    (hread : tryParseRequestCondition structured (trim s) = .ok (some c.trimmed)) (hprinted : Printed parens c t)
    (h : s ++ x = t ++ y) : s = t ∧ Writable c ∧ t = (shapeOf c.written parens c).text c.written := by
  rw [htight.trim_eq] at hread
  cases hprinted with
  | shape ht =>
    rw [ht] at h ⊢
    obtain ⟨heq, hw⟩ := part_eq hc htight hread h
    exact ⟨heq, hw, rfl⟩
  | wrapped hnot ht =>
    rw [ht, cons_append, append_assoc] at h
    exact (not_in_parens hc hnot hread h).elim

/-- A text that is read as the group, and begins as the group is written, is what is written, and its conditions come
back and are apart. -/
theorem factor_eq {s x y : Text} (hg : CompleteGroup g) (hne : g.conditions ≠ [])
    (hread : tryParseRuleGroupFactor structured s = .ok (some g.trimmed)) (h : s ++ x = buildRuleGroupFactor g ++ y) :
    s = buildRuleGroupFactor g ∧ GroupWritable g := by
  obtain ⟨conditions, -, -, rfl, hconditions⟩ := (tryParseRuleGroupFactor_iff structured).1 hread
  rw [buildRuleGroupFactor_eq hg hne] at h ⊢
  have htail : conditions ++ (" ? ".toList ++ (g.multiplier ++ " : 1)".toList)) ++ x =
      join " && ".toList (groupParts g) ++ (" ? ".toList ++ (g.multiplier ++ " : 1)".toList)) ++ y := (cons.inj h).2
  have htail' : conditions ++ (" ? ".toList ++ (g.multiplier ++ (" : 1)".toList ++ x))) =
      join " && ".toList (groupParts g) ++ (" ? ".toList ++ (g.multiplier ++ (" : 1)".toList ++ y))) := by
    simpa only [append_assoc] using htail
  obtain ⟨-, hparts⟩ := (tryParseRequestConditions_iff structured).1 hconditions
  have hreads : List.Forall₂ (fun part c => tryParseRequestCondition structured (trim part) =
      .ok (some (RequestCondition.trimmed c))) (splitTopLevelAnd conditions) g.conditions := by
    rwa [RequestRuleGroup.trimmed, forall₂_map_right_iff] at hparts
  have hprinted : List.Forall₂ (fun c t => Complete c ∧ Printed g.beside c t) g.conditions (groupParts g) := by
    rw [groupParts_eq hg, forall₂_map_right_iff, List.forall₂_same]
    exact fun c hc => ⟨hg.conditions c hc, partOf_printed (hg.conditions c hc)⟩
  have hfollow : ∀ z : Text, Follow (" ? ".toList ++ z) := fun z => Or.inr ⟨'?', ' ' :: z, rfl, by decide⟩
  obtain ⟨heq, happart⟩ := cut_reads separator_and
    (fun c p t x y htight hread hprinted h => (printed_eq hprinted.1 htight hread hprinted.2 h).1)
    (fun c t hprinted => ⟨(hprinted.2.tight hprinted.1).ne_nil, (hprinted.2.tight hprinted.1).head⟩)
    hne hreads hprinted htail' (hfollow _) (hfollow _) (by rintro ⟨z, hz⟩; cases hz)
  -- the text is taken apart into the parts, so each part is read
  have hall := groupParts_tight hg
  have hpartsne : groupParts g ≠ [] := by
    rw [groupParts_eq hg]
    exact fun h => hne (map_eq_nil_iff.1 h)
  have hsplit : splitTopLevelAnd conditions = groupParts g := by
    rw [heq]
    exact splitTopLevel_join separator_and hpartsne (fun t ht => (hall t ht).1) (fun t ht => (hall t ht).2) happart
  rw [hsplit, groupParts_eq hg, forall₂_map_left_iff, List.forall₂_same] at hreads
  have hback : ∀ c ∈ g.conditions, Writable c ∧ partOf g c = (shapeOf c.written g.beside c).text c.written := by
    intro c hc
    have hprinted : Printed g.beside c (partOf g c) := partOf_printed (hg.conditions c hc)
    obtain ⟨-, hw, ht⟩ := printed_eq (x := []) (y := []) (hg.conditions c hc) (hprinted.tight (hg.conditions c hc))
      (hreads c hc) hprinted rfl
    exact ⟨hw, ht⟩
  refine ⟨by rw [heq]; rfl, hne, fun c hc => (hback c hc).1, fun hbeside c hc hrange => ?_, ?_⟩
  · cases hor : includes " || ".toList (condText false c) with
    | false => rfl
    | true =>
      exfalso
      obtain ⟨hw, ht⟩ := hback c hc
      have hcomplete := hg.conditions c hc
      have hbuild := hw.buildRequestConditionExpr_eq hcomplete
      have hwrapped := (besideOthers_printed hcomplete).2 hrange (by rw [hbuild]; exact hor)
      unfold partOf at ht
      rw [hbeside, if_pos rfl, hwrapped, not_range_parens hrange] at ht
      have hlen := congrArg length ht
      rw [length_cons, length_append] at hlen
      omega
  · have htexts : groupParts g = groupTexts g := by
      rw [groupParts_eq hg]
      refine map_congr_left fun c hc => ?_
      obtain ⟨hw, ht⟩ := hback c hc
      rw [ht, hw.written_eq]
      rfl
    rw [← htexts]
    exact happart

/-! ## Rules -/

/-- What is read as a group has a condition. -/
theorem read_conditions {s : Text} (h : tryParseRuleGroupFactor structured s = .ok (some g)) : g.conditions ≠ [] := by
  obtain ⟨conditions, -, -, -, hconditions⟩ := (tryParseRuleGroupFactor_iff structured).1 h
  exact ((tryParseRequestConditions_iff structured).1 hconditions).1

omit structured in
theorem factor_tight (hg : CompleteGroup g) (hne : g.conditions ≠ []) :
    Tight (buildRuleGroupFactor g) ∧ ∀ c ∈ (buildRuleGroupFactor g).getLast?, c ∉ " * ".toList := by
  have hlast : (buildRuleGroupFactor g).getLast? = some ')' := by
    have hsplit : buildRuleGroupFactor g = ('(' :: (join " && ".toList (groupParts g) ++ (" ? ".toList ++
        (g.multiplier ++ " : 1".toList)))) ++ [')'] := by
      rw [buildRuleGroupFactor_eq hg hne]
      simp only [cons_append, append_assoc]
      rfl
    rw [hsplit, getLast?_concat]
  refine ⟨⟨?_, ?_, by rw [hlast]; rfl⟩, fun c hc => ?_⟩
  · rw [buildRuleGroupFactor_eq hg hne]
    exact cons_ne_nil _ _
  · rw [buildRuleGroupFactor_eq hg hne]
    rfl
  · rw [hlast] at hc
    cases hc
    decide

omit structured in
theorem tight_join {sep : Text} {ts : List Text} (hne : ts ≠ []) (hall : ∀ t ∈ ts, Tight t) : Tight (join sep ts) := by
  induction ts with
  | nil => exact absurd rfl hne
  | cons t ts ih =>
    obtain ⟨ht, hts⟩ := forall_mem_cons.1 hall
    cases ts with
    | nil => exact ht
    | cons t' ts =>
      have hmore := ih (cons_ne_nil _ _) hts
      refine ⟨join_ne_nil (cons_ne_nil _ _) hall, ?_, ?_⟩
      · show (t ++ sep ++ join sep (t' :: ts)).head?.any isBlank = false
        rw [append_assoc, head_append ht.ne_nil]
        exact ht.head
      · show (t ++ sep ++ join sep (t' :: ts)).getLast?.any isBlank = false
        rw [getLast?_append]
        cases hl : (join sep (t' :: ts)).getLast? with
        | none => exact absurd (getLast?_eq_none_iff.1 hl) hmore.ne_nil
        | some =>
          have hlast := hmore.last
          rw [hl] at hlast
          exact hlast

omit structured in
theorem buildRequestRuleExpr_eq {groups : List RequestRuleGroup} (hg : ∀ g ∈ groups, CompleteGroup g)
    (hne : ∀ g ∈ groups, g.conditions ≠ []) :
    buildRequestRuleExpr groups = join " * ".toList (groups.map buildRuleGroupFactor) := by
  unfold buildRequestRuleExpr
  rw [filter_eq_self.2]
  intro e he
  obtain ⟨g, hmem, rfl⟩ := List.mem_map.1 he
  exact decide_eq_true (factor_tight (hg g hmem) (hne g hmem)).1.ne_nil

/-- What is read from some text has the conditions that are asked for only if every group has one. -/
theorem conditions_of_read {e : Text} {groups : List RequestRuleGroup}
    (h : tryParseRequestRuleExpr structured e = .ok (some (groups.map RequestRuleGroup.trimmed))) :
    ∀ g ∈ groups, g.conditions ≠ [] := by
  unfold tryParseRequestRuleExpr at h
  by_cases hnil : trim e = []
  · rw [if_pos hnil] at h
    have hempty := Option.some.inj (Except.ok.inj h)
    rw [map_eq_nil_iff.1 hempty.symm]
    simp
  · rw [if_neg hnil, readParts_iff, forall₂_map_right_iff] at h
    have hboth : List.Forall₂ (fun g part => g.conditions ≠ [] ∧ tryParseRuleGroupFactor structured part =
        .ok (some (RequestRuleGroup.trimmed g))) groups (splitTopLevelMultiply (trim e)) := by
      refine h.flip.imp fun g part hread => ⟨fun hconditions => read_conditions hread ?_, hread⟩
      show g.conditions.map _ = []
      rw [hconditions]
      rfl
    exact ((forall₂_and_left _ _).1 hboth).1

/-- Complete rules come back if and only if each group has a condition, each condition comes back by itself, the
conditions of each group are apart, and the groups are. -/
theorem roundTrip_iff (structured : Structured) (groups : List RequestRuleGroup) (hg : ∀ g ∈ groups, CompleteGroup g) :
    tryParseRequestRuleExpr structured (buildRequestRuleExpr groups) =
        .ok (some (groups.map RequestRuleGroup.trimmed)) ↔
      (∀ g ∈ groups, GroupWritable g) ∧ Apart " * ".toList (groups.map groupText) := by
  cases groups with
  | nil => exact ⟨fun _ => ⟨by simp, trivial⟩, fun _ => rfl⟩
  | cons g0 gs =>
    generalize hgroups : g0 :: gs = groups at hg ⊢
    have hsome : groups ≠ [] := by
      rw [← hgroups]
      exact cons_ne_nil _ _
    have hfactors : groups.map buildRuleGroupFactor ≠ [] := fun h => hsome (map_eq_nil_iff.1 h)
    have htight : (∀ g ∈ groups, g.conditions ≠ []) → ∀ t ∈ groups.map buildRuleGroupFactor,
        Tight t ∧ ∀ c ∈ t.getLast?, c ∉ " * ".toList := by
      intro hne t ht
      obtain ⟨g, hmem, rfl⟩ := List.mem_map.1 ht
      exact factor_tight (hg g hmem) (hne g hmem)
    have htrim : (∀ g ∈ groups, g.conditions ≠ []) → Tight (buildRequestRuleExpr groups) := by
      intro hne
      rw [buildRequestRuleExpr_eq hg hne]
      exact tight_join hfactors fun t ht => (htight hne t ht).1
    have hparse : (∀ g ∈ groups, g.conditions ≠ []) →
        (tryParseRequestRuleExpr structured (buildRequestRuleExpr groups) =
            .ok (some (groups.map RequestRuleGroup.trimmed)) ↔
          List.Forall₂ (fun s g => tryParseRuleGroupFactor structured s = .ok (some (RequestRuleGroup.trimmed g)))
            (splitTopLevelMultiply (join " * ".toList (groups.map buildRuleGroupFactor))) groups) := by
      intro hne
      unfold tryParseRequestRuleExpr
      rw [(htrim hne).trim_eq, if_neg (htrim hne).ne_nil, readParts_iff, forall₂_map_right_iff,
        buildRequestRuleExpr_eq hg hne]
    have hsplit : (∀ g ∈ groups, g.conditions ≠ []) → Apart " * ".toList (groups.map buildRuleGroupFactor) →
        splitTopLevelMultiply (join " * ".toList (groups.map buildRuleGroupFactor)) =
          groups.map buildRuleGroupFactor := fun hne happart =>
      splitTopLevel_join separator_multiply hfactors (fun t ht => (htight hne t ht).1)
        (fun t ht => (htight hne t ht).2) happart
    have htexts : (∀ g ∈ groups, GroupWritable g) → groups.map buildRuleGroupFactor = groups.map groupText :=
      fun hwritable => map_congr_left fun g hmem => (hwritable g hmem).buildRuleGroupFactor_eq (hg g hmem)
    constructor
    · intro h
      have hne := conditions_of_read h
      have hreads := (hparse hne).1 h
      have hprinted : List.Forall₂ (fun g t => (CompleteGroup g ∧ g.conditions ≠ []) ∧ t = buildRuleGroupFactor g) groups
          (groups.map buildRuleGroupFactor) := by
        rw [forall₂_map_right_iff, List.forall₂_same]
        exact fun g hmem => ⟨⟨hg g hmem, hne g hmem⟩, rfl⟩
      obtain ⟨-, happart⟩ := cut_reads (x := []) (y := []) separator_multiply
        (fun g p t x y _ hread hprinted h => by
          obtain ⟨⟨hcomplete, hconditions⟩, rfl⟩ := hprinted
          exact (factor_eq hcomplete hconditions hread h).1)
        (fun g t hprinted => by
          obtain ⟨⟨hcomplete, hconditions⟩, rfl⟩ := hprinted
          have hfactor := (factor_tight hcomplete hconditions).1
          exact ⟨hfactor.ne_nil, hfactor.head⟩)
        hsome hreads hprinted rfl (Or.inl rfl) (Or.inl rfl) (by rintro ⟨z, hz⟩; cases hz)
      rw [hsplit hne happart, forall₂_map_left_iff, List.forall₂_same] at hreads
      have hwritable : ∀ g ∈ groups, GroupWritable g :=
        fun g hmem => (factor_eq (x := []) (y := []) (hg g hmem) (hne g hmem) (hreads g hmem) rfl).2
      rw [htexts hwritable] at happart
      exact ⟨hwritable, happart⟩
    · rintro ⟨hwritable, happart⟩
      have hne : ∀ g ∈ groups, g.conditions ≠ [] := fun g hmem => (hwritable g hmem).some_condition
      rw [← htexts hwritable] at happart
      refine (hparse hne).2 ?_
      rw [hsplit hne happart, forall₂_map_left_iff, List.forall₂_same]
      exact fun g hmem => tryParse_groupFactor (hg g hmem) (hwritable g hmem)

end

/-! ## Conditions that are cut in two -/

/-- A parameter that is greater than a number is not read back. -/
theorem greater_not_read : CompleteGroup ⟨[.paramHeader .param ['a'] .gt ['5']], ['2']⟩ ∧
      tryParseRequestRuleExpr (fun _ => none)
        (buildRequestRuleExpr [⟨[.paramHeader .param ['a'] .gt ['5']], ['2']⟩]) = .ok none := by
  refine ⟨⟨by decide +kernel, fun c hc => ?_⟩, by decide +kernel⟩
  rw [mem_singleton.1 hc]
  exact ⟨by decide, by decide, fun _ => by decide +kernel⟩

/-- A header with a multiplication sign in its value, beside a range, is read back. -/
theorem header_range_read : (∀ g ∈ [RequestRuleGroup.mk [.paramHeader .header ['a'] .eq ['b', ' ', '*', ' ', 'c'],
      .time .hour ['U', 'T', 'C'] .range [] ['2', '2'] ['6']] ['2']], GroupWritable g) ∧
      Apart " * ".toList ([RequestRuleGroup.mk [.paramHeader .header ['a'] .eq ['b', ' ', '*', ' ', 'c'],
        .time .hour ['U', 'T', 'C'] .range [] ['2', '2'] ['6']] ['2']].map groupText) := by
  refine (roundTrip_iff (fun _ => none) _ fun g hg => ?_).1 (by decide +kernel)
  rw [mem_singleton.1 hg]
  refine ⟨by decide +kernel, forall_mem_cons.2 ⟨⟨by decide, by decide, by decide⟩, fun c hc => ?_⟩⟩
  rw [mem_singleton.1 hc]
  exact ⟨by decide, by decide, by decide +kernel, by decide +kernel⟩

end NovaMaas.Pricing
