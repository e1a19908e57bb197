/-
  When a condition comes back from its text.

  A condition is written in one shape (`shapeOf`), with its path or its time zone escaped as JSON, and read with this path
  as it stands.  So it comes back if there is nothing to escape in its path and the path is not padded (`Writable`,
  `tryParse_condText`).  Conversely a text that is read as the condition, and begins as the text of the condition, IS the
  text of the condition, and the condition is of this kind (`part_eq`).
-/
import NovaMaas.Pricing.RuleLiterals

open List

namespace NovaMaas.Pricing

open Pattern Places

/-! ## Conditions and their notation -/

/-- The modes that compare with a number. -/
def MatchMode.isCompare (mode : MatchMode) : Bool := mode ∈ [MatchMode.gt, .gte, .lt, .lte]

/-- A condition that the editor takes as filled in. -/
def Complete : RequestCondition → Prop
  | .paramHeader source path mode value =>
    mode ∈ requestMatchOptions source ∧ trim path ≠ [] ∧ (mode.isCompare = true → isNumericLiteral (trim value) = true)
  | .time _ timezone mode value rangeStart rangeEnd =>
    mode ∈ timeMatchOptions ∧ timezone ≠ [] ∧
      if mode = .range then isNumericLiteral (trim rangeStart) = true ∧ isNumericLiteral (trim rangeEnd) = true
      else isNumericLiteral (trim value) = true

/-- The same condition, with what it does not use left out and its value or range trimmed. -/
def RequestCondition.trimmed : RequestCondition → RequestCondition
  | .paramHeader source path mode value => .paramHeader source path mode (if mode = .exist then [] else trim value)
  | .time f zone mode value rangeStart rangeEnd =>
    if mode = .range then .time f zone .range [] (trim rangeStart) (trim rangeEnd)
    else .time f zone mode (trim value) [] []

/-- The path or the time zone. -/
def RequestCondition.place : RequestCondition → Text
  | .paramHeader _ path _ _ => path
  | .time _ zone _ _ _ _ => zone

/-- The path or the time zone, as it is written. -/
def RequestCondition.written : RequestCondition → Text
  | .paramHeader _ path _ _ => escape (trim path)
  | .time _ zone _ _ _ _ => escape zone

def RequestCondition.isRange : RequestCondition → Bool
  | .time _ _ .range _ _ _ => true
  | _ => false

/-- The shape in which a condition is written; a path that is written twice is a parameter. -/
def shapeOf (path : Text) (parens : Bool) : RequestCondition → Shape
  | .paramHeader .header _ .exist _ => .headerExists
  | .paramHeader .param _ .exist _ => .paramExists
  | .paramHeader .header _ .contains value => .headerContains (jsonStringify (trim value))
  | .paramHeader .param _ .contains value => .paramContains path (jsonStringify (trim value))
  | .paramHeader source _ mode value =>
    if mode.isCompare then .compare path mode (trim value) else .equality source (buildExprLiteral .eq value)
  | .time f _ .range _ a b => .range f (trim a) (trim b) parens
  | .time f _ mode value _ _ => .single f mode (trim value)

variable {c : RequestCondition}

/-- A complete condition, by its mode. -/
theorem Complete.cases {P : RequestCondition → Prop} (hc : Complete c)
    (hexists : ∀ source path value, trim path ≠ [] → P (.paramHeader source path .exist value))
    (hcontains : ∀ source path value, trim path ≠ [] → P (.paramHeader source path .contains value))
    (hcompare : ∀ path mode value, trim path ≠ [] → mode ∈ [MatchMode.gt, .gte, .lt, .lte] →
      isNumericLiteral (trim value) = true → P (.paramHeader .param path mode value))
    (heq : ∀ source path value, trim path ≠ [] → P (.paramHeader source path .eq value))
    (hrange : ∀ f zone value a b, zone ≠ [] → isNumericLiteral (trim a) = true → isNumericLiteral (trim b) = true →
      P (.time f zone .range value a b))
    (hsingle : ∀ f zone mode value a b, zone ≠ [] → mode ∈ [MatchMode.eq, .gte, .lt] →
      isNumericLiteral (trim value) = true → P (.time f zone mode value a b)) : P c := by
  cases c with
  | paramHeader source path mode value =>
    obtain ⟨hmode, hpath, hnumber⟩ := hc
    cases mode with
    | eq => exact heq source path value hpath
    | contains => exact hcontains source path value hpath
    | exist => exact hexists source path value hpath
    | range => cases source <;> exact absurd hmode (by decide)
    | _ =>
      cases source with
      | header => exact absurd hmode (by decide)
      | param => exact hcompare path _ value hpath (by decide) (hnumber (by decide))
  | time f zone mode value a b =>
    obtain ⟨hmode, hzone, hnumber⟩ := hc
    cases mode with
    | range => exact hrange f zone value a b hzone hnumber.1 hnumber.2
    | eq => exact hsingle f zone .eq value a b hzone (by decide) hnumber
    | gte => exact hsingle f zone .gte value a b hzone (by decide) hnumber
    | lt => exact hsingle f zone .lt value a b hzone (by decide) hnumber
    | _ => exact absurd hmode (by decide)

theorem callStr_append (name text rest : Text) : callStr name text ++ rest = called name (escape text) rest := by
  unfold callStr called jsonStringify
  simp only [append_assoc, cons_append, nil_append]

theorem shapeOf_compare {path p value : Text} {parens : Bool} {mode : MatchMode}
    (hmode : mode ∈ [MatchMode.gt, .gte, .lt, .lte]) :
    shapeOf p parens (.paramHeader .param path mode value) = .compare p mode (trim value) := by
  simp only [mem_cons, not_mem_nil, or_false] at hmode
  rcases hmode with rfl | rfl | rfl | rfl <;> rfl

theorem shapeOf_eq (p path value : Text) (parens : Bool) (source : RequestSource) :
    shapeOf p parens (.paramHeader source path .eq value) = .equality source (buildExprLiteral .eq value) := by
  cases source <;> rfl

theorem shapeOf_single {p zone value a b : Text} {parens : Bool} {f : TimeFunc} {mode : MatchMode}
    (hmode : mode ∈ [MatchMode.eq, .gte, .lt]) :
    shapeOf p parens (.time f zone mode value a b) = .single f mode (trim value) := by
  simp only [mem_cons, not_mem_nil, or_false] at hmode
  rcases hmode with rfl | rfl | rfl <;> rfl

/-- A complete condition is written in its shape. -/
theorem buildRequestConditionExpr_eq (hc : Complete c) :
    buildRequestConditionExpr c = (shapeOf c.written false c).text c.written := by
  refine hc.cases (P := fun c => buildRequestConditionExpr c = (shapeOf c.written false c).text c.written)
    ?_ ?_ ?_ ?_ ?_ ?_
  · intro source path value hpath
    cases source with
    | param =>
      show buildParamHeaderExpr .param path .exist value = _
      unfold buildParamHeaderExpr
      rw [if_neg hpath]
      exact callStr_append _ _ _
    | header =>
      show buildParamHeaderExpr .header path .exist value = _
      unfold buildParamHeaderExpr
      rw [if_neg hpath]
      exact callStr_append _ _ _
  · intro source path value hpath
    cases source with
    | param =>
      show buildParamHeaderExpr .param path .contains value = _
      unfold buildParamHeaderExpr
      rw [if_neg hpath]
      show callStr _ _ ++ " != nil && ".toList ++ ("has(".toList ++ callStr _ _ ++ ", ".toList ++
        jsonStringify (trim value) ++ [')']) = _
      simp only [append_assoc, callStr_append, called_append]
      rfl
    | header =>
      show buildParamHeaderExpr .header path .contains value = _
      unfold buildParamHeaderExpr
      rw [if_neg hpath]
      show "has(".toList ++ callStr _ _ ++ ", ".toList ++ jsonStringify (trim value) ++ [')'] = _
      simp only [append_assoc, callStr_append, called_append]
      rfl
  · intro path mode value hpath hmode hnumber
    have hbuild : buildRequestConditionExpr (.paramHeader .param path mode value) =
        callStr RequestSource.param.key (trim path) ++ " != nil && ".toList ++
          callStr RequestSource.param.key (trim path) ++ [' '] ++ mode.op ++ [' '] ++ trim value := by
      simp only [mem_cons, not_mem_nil, or_false] at hmode
      rcases hmode with rfl | rfl | rfl | rfl <;>
        simp [buildRequestConditionExpr, normalizeCondition, requestMatchOptions, conditionExpr, buildParamHeaderExpr,
          hpath, hnumber]
    rw [hbuild, shapeOf_compare hmode]
    simp only [append_assoc, callStr_append, called_append]
    rfl
  · intro source path value hpath
    have hbuild : buildRequestConditionExpr (.paramHeader source path .eq value) =
        callStr source.key (trim path) ++ " == ".toList ++ buildExprLiteral .eq value := by
      cases source <;>
        simp [buildRequestConditionExpr, normalizeCondition, requestMatchOptions, conditionExpr, buildParamHeaderExpr,
          hpath]
    rw [hbuild, shapeOf_eq, append_assoc, callStr_append]
    rfl
  · intro f zone value a b hzone ha hb
    have hbuild : buildRequestConditionExpr (.time f zone .range value a b) =
        callStr f.key zone ++ " >= ".toList ++ trim a ++ " || ".toList ++ callStr f.key zone ++ " < ".toList ++
          trim b := by
      simp [buildRequestConditionExpr, normalizeCondition, timeMatchOptions, conditionExpr, buildTimeConditionExpr,
        hzone, ha, hb]
    rw [hbuild]
    simp only [append_assoc, callStr_append, called_append]
    show _ = called f.key (escape zone) (" >= ".toList ++ (trim a ++ (" || ".toList ++ (f.key ++ ('(' :: '"' ::
      (escape zone ++ ("\") < ".toList ++ (trim b ++ []))))))))
    rw [append_nil]
    rfl
  · intro f zone mode value a b hzone hmode hnumber
    have hbuild : buildRequestConditionExpr (.time f zone mode value a b) =
        callStr f.key zone ++ [' '] ++ mode.op ++ [' '] ++ trim value := by
      simp only [mem_cons, not_mem_nil, or_false] at hmode
      rcases hmode with rfl | rfl | rfl <;>
        simp [buildRequestConditionExpr, normalizeCondition, timeMatchOptions, conditionExpr, buildTimeConditionExpr,
          hzone, hnumber]
    rw [hbuild, shapeOf_single hmode]
    simp only [append_assoc, callStr_append, called_append]
    rfl

/-! ## Reading a condition that comes back -/

/-- There is nothing to escape in the path, which is not padded, and nothing ends a line in the value. -/
def Writable : RequestCondition → Prop
  | .paramHeader _ path mode value => trim path = path ∧ (∀ ch ∈ path, PlainChar ch) ∧
      (mode = .eq → ∀ ch ∈ trim value, ch.toNat ∉ [0x2028, 0x2029])
  | .time _ zone _ _ _ _ => ∀ ch ∈ zone, PlainChar ch

/-- The text of a condition, with its path as it stands. -/
def condText (parens : Bool) (c : RequestCondition) : Text := (shapeOf c.place parens c).text c.place

theorem Writable.written_eq (h : Writable c) : c.written = c.place := by
  cases c with
  | paramHeader _ path =>
    show escape (trim path) = path
    rw [h.1]
    exact escape_eq_iff.2 h.2.1
  | time => exact escape_eq_iff.2 h

theorem Writable.buildRequestConditionExpr_eq (hc : Complete c) (h : Writable c) :
    buildRequestConditionExpr c = condText false c := by
  rw [NovaMaas.Pricing.buildRequestConditionExpr_eq hc, h.written_eq]
  rfl

theorem path_of_plain {p : Text} (hne : p ≠ []) (h : ∀ c ∈ p, PlainChar c) : Path p :=
  ⟨hne, fun hmem => absurd rfl (h _ hmem).1⟩

theorem Writable.path (hc : Complete c) (h : Writable c) : Path c.place := by
  cases c with
  | paramHeader =>
    refine path_of_plain ?_ h.2.1
    have hne := hc.2.1
    rw [h.1] at hne
    exact hne
  | time => exact path_of_plain hc.2.1 h

/-! ### The literal of an equality -/

theorem buildExprLiteral_cases (value : Text) : (buildExprLiteral .eq value = trim value ∧
      (trim value = "true".toList ∨ trim value = "false".toList ∨ isNumericLiteral (trim value) = true)) ∨
      (buildExprLiteral .eq value = jsonStringify (trim value) ∧ trim value ≠ "true".toList ∧
        trim value ≠ "false".toList ∧ isNumericLiteral (trim value) = false) := by
  unfold buildExprLiteral
  rw [if_neg (by decide)]
  by_cases hbool : trim value = "true".toList ∨ trim value = "false".toList
  · rw [if_pos hbool]
    refine Or.inl ⟨rfl, ?_⟩
    rcases hbool with h | h
    · exact Or.inl h
    · exact Or.inr (Or.inl h)
  · rw [if_neg hbool]
    obtain ⟨htrue, hfalse⟩ := not_or.1 hbool
    cases hnumber : isNumericLiteral (trim value) with
    | true => exact Or.inl ⟨if_pos rfl, Or.inr (Or.inr rfl)⟩
    | false => exact Or.inr ⟨if_neg Bool.false_ne_true, htrue, hfalse, rfl⟩

theorem numeral_isDot {c : Char} (h : isNumeral c = true) : isDot c = true := by
  have hcode := numeral_code h
  unfold isDot
  rw [decide_eq_true_eq]
  simp only [mem_cons, not_mem_nil, or_false]
  omega

/-- The literal is in one line if and only if the value is. -/
theorem literal_isDot {value : Text} :
    (∀ c ∈ buildExprLiteral .eq value, isDot c = true) ↔ ∀ c ∈ trim value, c.toNat ∉ [0x2028, 0x2029] := by
  rcases buildExprLiteral_cases value with ⟨heq, hwords⟩ | ⟨heq, -⟩
  · have hdot : ∀ c ∈ trim value, isDot c = true := by
      rcases hwords with h | h | h
      · rw [h]
        exact all_eq_true.1 (by decide)
      · rw [h]
        exact all_eq_true.1 (by decide)
      · intro c hc
        exact numeral_isDot ((numeral_of_literal h).2 c hc)
    rw [heq]
    refine ⟨fun _ c hc hmem => ?_, fun _ => hdot⟩
    have hc' := hdot c hc
    unfold isDot at hc'
    rw [decide_eq_true_eq] at hc'
    simp only [mem_cons, not_mem_nil, or_false] at hmem hc'
    omega
  · rw [heq]
    unfold jsonStringify
    constructor
    · intro hall c hc hmem
      have hplain : PlainChar c := by
        simp only [mem_cons, not_mem_nil, or_false] at hmem
        refine ⟨?_, ?_, by omega⟩
        · rintro rfl
          exact absurd hmem (by decide)
        · rintro rfl
          exact absurd hmem (by decide)
      have hin : c ∈ escape (trim value) :=
        mem_flatMap.2 ⟨c, hc, by rw [escapeChar_plain hplain]; exact mem_singleton_self c⟩
      have hdot := hall c (mem_cons_of_mem _ (mem_append_left _ hin))
      unfold isDot at hdot
      rw [decide_eq_true_eq] at hdot
      simp only [mem_cons, not_mem_nil, or_false] at hmem hdot
      omega
    · intro hall c hc
      have hquote : isDot '"' = true := by decide
      rcases List.mem_cons.1 hc with rfl | hc
      · exact hquote
      rcases List.mem_append.1 hc with hc | hc
      · obtain ⟨d, hd, hcd⟩ := List.mem_flatMap.1 hc
        have hend : ∀ e : Char, PlainChar e → e.toNat ∉ [0x2028, 0x2029] → isDot e = true := by
          intro e he hmem
          have hcode := he.2.2
          unfold isDot
          rw [decide_eq_true_eq]
          simp only [List.mem_cons, List.not_mem_nil, or_false] at hmem ⊢
          omega
        by_cases hplain : PlainChar d
        · rw [escapeChar_plain hplain, List.mem_singleton] at hcd
          rw [hcd]
          exact hend d hplain (hall d hd)
        · obtain ⟨e, u, hescape, he, hu, -⟩ := escapeChar_escaped hplain
          rw [hescape] at hcd
          rcases List.mem_cons.1 hcd with rfl | hcd
          · decide
          · rcases List.mem_cons.1 hcd with rfl | hcd
            · exact he
            · refine hend c (hu c hcd).1 fun hmem => ?_
              have hblank := (hu c hcd).2
              unfold isBlank at hblank
              simp only [List.mem_cons, List.not_mem_nil, or_false] at hmem
              rcases hmem with h | h <;> rw [h] at hblank <;> exact absurd hblank (by decide)
      · rw [List.mem_singleton.1 hc]
        exact hquote

section

variable (structured : Structured)

/-- The literal of an equality is read as the value. -/
theorem parseExprLiteral_build (value : Text) :
    parseExprLiteral structured (buildExprLiteral .eq value) = some (trim value) := by
  rcases buildExprLiteral_cases value with ⟨heq, hwords⟩ | ⟨heq, -⟩
  · rw [heq]
    unfold parseExprLiteral
    have htrim : trim (trim value) = trim value := by
      by_cases hnil : trim value = []
      · rw [hnil]
        rfl
      · exact (tight_trim hnil).trim_eq
    simp only [htrim]
    rcases hwords with h | h | h
    · rw [if_pos (Or.inl h)]
    · rw [if_pos (Or.inr h)]
    · by_cases hbool : trim value = "true".toList ∨ trim value = "false".toList
      · rw [if_pos hbool]
      · rw [if_neg hbool, if_pos h]
  · have htight : Tight (jsonStringify (trim value)) := by
      refine ⟨List.cons_ne_nil _ _, rfl, ?_⟩
      unfold jsonStringify
      rw [← List.cons_append, List.getLast?_concat]
      rfl
    rw [heq]
    unfold parseExprLiteral
    simp only [htight.trim_eq]
    have hhead : (jsonStringify (trim value)).head? = some '"' := rfl
    rw [if_neg, if_neg, if_pos hhead, jsonParseString_stringify]
    · intro h
      have hmem := (numeral_of_literal h).2 '"' List.mem_cons_self
      exact absurd hmem (by decide)
    · rintro (h | h)
      · exact absurd (List.cons.inj h).1 (by decide)
      · exact absurd (List.cons.inj h).1 (by decide)

/-! ### A condition by itself -/

variable {c : RequestCondition}

omit structured in
theorem shapeOf_valid (parens : Bool) (hc : Complete c) (h : Writable c) : (shapeOf c.place parens c).Valid := by
  have hpath := h.path hc
  revert h hpath
  refine hc.cases (P := fun c => Writable c → Path c.place → (shapeOf c.place parens c).Valid) ?_ ?_ ?_ ?_ ?_ ?_
  · intro source path value _ _ _
    cases source <;> trivial
  · intro source path value _ _ hpath
    cases source with
    | param => exact ⟨hpath, token_stringify _⟩
    | header => exact token_stringify _
  · intro path mode value _ hmode hnumber _ hpath
    rw [shapeOf_compare hmode]
    exact ⟨hpath, hmode, numeral_of_literal hnumber⟩
  · intro source path value _ h _
    rw [shapeOf_eq]
    refine ⟨?_, literal_isDot.2 (h.2.2 rfl)⟩
    intro hnil
    rcases buildExprLiteral_cases value with ⟨heq, hwords⟩ | ⟨heq, -⟩
    · rw [heq] at hnil
      rw [hnil] at hwords
      rcases hwords with h | h | h <;> exact absurd h (by decide)
    · rw [heq] at hnil
      cases hnil
  · intro f zone value a b _ ha hb _ _
    exact ⟨numeral_of_literal ha, numeral_of_literal hb⟩
  · intro f zone mode value a b _ hmode hnumber _ _
    rw [shapeOf_single hmode]
    exact ⟨hmode, numeral_of_literal hnumber⟩

/-- A condition without anything to escape in its path comes back. -/
theorem tryParse_condText (parens : Bool) (hc : Complete c) (h : Writable c) :
    tryParseRequestCondition structured (condText parens c) = .ok (some c.trimmed) := by
  have hpath := h.path hc
  unfold condText
  rw [tryParse_shape structured (shapeOf_valid parens hc h) hpath]
  refine hc.cases (P := fun c => (shapeOf c.place parens c).meaning structured c.place = .ok (some c.trimmed))
    ?_ ?_ ?_ ?_ ?_ ?_
  · intro source path value _
    cases source <;> rfl
  · intro source path value _
    have hread : contained source path (jsonStringify (trim value)) =
        .ok (some (.paramHeader source path .contains (trim value))) := by
      unfold contained
      rw [jsonParseString_stringify]
    cases source with
    | header => exact hread
    | param => exact (if_pos rfl).trans hread
  · intro path mode value _ hmode _
    rw [shapeOf_compare hmode]
    have hvalue : (RequestCondition.paramHeader .param path mode value).trimmed =
        .paramHeader .param path mode (trim value) := by
      simp only [List.mem_cons, List.not_mem_nil, or_false] at hmode
      rcases hmode with rfl | rfl | rfl | rfl <;> rfl
    rw [hvalue]
    exact if_pos rfl
  · intro source path value _
    rw [shapeOf_eq]
    show Except.ok ((parseExprLiteral structured (buildExprLiteral .eq value)).map _) = _
    rw [parseExprLiteral_build]
    rfl
  · intro f zone value a b _ _ _
    rfl
  · intro f zone mode value a b _ hmode _
    rw [shapeOf_single hmode]
    simp only [List.mem_cons, List.not_mem_nil, or_false] at hmode
    rcases hmode with rfl | rfl | rfl <;> rfl

/-! ### A text that is read as a condition is its text -/

/-- The shape of a text that is read as a condition. -/
inductive Means (p : Text) : Shape → RequestCondition → Prop
  | range (f : TimeFunc) (a b : Text) (parens : Bool) : Means p (.range f a b parens) (.time f p .range [] a b)
  | single (f : TimeFunc) (mode : MatchMode) (v : Text) (h : mode ∈ [MatchMode.eq, .gte, .lt]) :
      Means p (.single f mode v) (.time f p mode v [] [])
  | headerExists : Means p .headerExists (.paramHeader .header p .exist [])
  | paramExists : Means p .paramExists (.paramHeader .param p .exist [])
  | headerContains (literal value : Text) (h : jsonParseString literal = some value) :
      Means p (.headerContains literal) (.paramHeader .header p .contains value)
  | paramContains (literal value : Text) (h : jsonParseString literal = some value) :
      Means p (.paramContains p literal) (.paramHeader .param p .contains value)
  | compare (mode : MatchMode) (v : Text) (h : mode ∈ [MatchMode.gt, .gte, .lt, .lte]) :
      Means p (.compare p mode v) (.paramHeader .param p mode v)
  | equality (source : RequestSource) (raw value : Text) (h : parseExprLiteral structured raw = some value) :
      Means p (.equality source raw) (.paramHeader source p .eq value)

variable {structured}

omit structured in
theorem contained_some {source : RequestSource} {path literal : Text}
    (h : contained source path literal = .ok (some c)) :
    ∃ value, jsonParseString literal = some value ∧ c = .paramHeader source path .contains value := by
  unfold contained at h
  cases hparse : jsonParseString literal with
  | none =>
    rw [hparse] at h
    cases h
  | some value =>
    rw [hparse] at h
    cases h
    exact ⟨value, rfl, rfl⟩

theorem means_of_meaning {σ : Shape} {p : Text} (hσ : σ.Valid)
    (h : σ.meaning structured p = .ok (some c)) : Means structured p σ c := by
  cases σ with
  | range f a b parens =>
    cases h
    exact Means.range f a b parens
  | single f mode v =>
    cases h
    exact Means.single f mode v hσ.1
  | headerExists =>
    cases h
    exact Means.headerExists
  | paramExists =>
    cases h
    exact Means.paramExists
  | headerContains literal =>
    obtain ⟨value, hparse, rfl⟩ := contained_some h
    exact Means.headerContains literal value hparse
  | paramContains path literal =>
    by_cases hpath : p = path
    · subst hpath
      obtain ⟨value, hparse, rfl⟩ := contained_some ((if_pos rfl).symm.trans h)
      exact Means.paramContains literal value hparse
    · have hnone := (if_neg hpath).symm.trans h
      cases hnone
  | compare path mode v =>
    by_cases hpath : p = path
    · subst hpath
      have hsome := (if_pos rfl).symm.trans h
      cases hsome
      exact Means.compare mode v hσ.2.1
    · have hnone := (if_neg hpath).symm.trans h
      cases hnone
  | equality source raw =>
    obtain ⟨value, hparse, rfl⟩ := Option.map_eq_some_iff.1 (Except.ok.inj h)
    exact Means.equality source raw value hparse

omit structured in
theorem trimmed_place (c : RequestCondition) : c.trimmed.place = c.place := by
  cases c with
  | paramHeader => rfl
  | time _ _ mode => cases mode <;> rfl

theorem Means.place {p : Text} {σ : Shape} (h : Means structured p σ c) : c.place = p := by
  cases h <;> rfl

omit structured in
theorem head_append {s : Text} (h : s ≠ []) (x : Text) : (s ++ x).head? = s.head? := List.head?_append_of_ne_nil _ h

/-- A literal that is read as the value, and begins as the literal of the value, is this literal. -/
theorem literal_eq {raw value x y : Text} (htight : Tight raw)
    (hread : parseExprLiteral structured raw = some (trim value))
    (h : raw ++ x = buildExprLiteral .eq value ++ y) : raw = buildExprLiteral .eq value := by
  have htrim := htight.trim_eq
  have hbuild := buildExprLiteral_cases value
  unfold parseExprLiteral at hread
  simp only [htrim] at hread
  by_cases hbool : raw = "true".toList ∨ raw = "false".toList
  · rw [if_pos hbool] at hread
    rcases hbuild with ⟨heq, -⟩ | ⟨-, htrue, hfalse, -⟩
    · rw [heq, Option.some.inj hread]
    · rw [← Option.some.inj hread] at htrue hfalse
      rcases hbool with hb | hb
      · exact absurd hb htrue
      · exact absurd hb hfalse
  rw [if_neg hbool] at hread
  by_cases hnumber : isNumericLiteral raw = true
  · rw [if_pos hnumber] at hread
    rcases hbuild with ⟨heq, -⟩ | ⟨-, -, -, hno⟩
    · rw [heq, Option.some.inj hread]
    · rw [← Option.some.inj hread, hnumber] at hno
      cases hno
  rw [if_neg hnumber] at hread
  -- what a literal other than a string begins with
  have hwords : buildExprLiteral .eq value = trim value → ∀ c, raw.head? = some c → c ≠ '"' ∧ c ≠ '[' ∧ c ≠ '\x7b' := by
    intro heq c hc
    rcases hbuild with ⟨-, hcases⟩ | ⟨hstring, -⟩
    · have hfirst : (buildExprLiteral .eq value).head? = some c := by
        have hne : buildExprLiteral .eq value ≠ [] := by
          rw [heq]
          intro hnil
          rw [hnil] at hcases
          rcases hcases with h | h | h <;> exact absurd h (by decide)
        rw [← head_append hne y, ← h, head_append htight.ne_nil]
        exact hc
      rw [heq] at hfirst
      rcases hcases with hcase | hcase | hcase
      · rw [hcase] at hfirst
        cases hfirst
        decide
      · rw [hcase] at hfirst
        cases hfirst
        decide
      · have hnum := (numeral_of_literal hcase).2 c (mem_of_mem_head? hfirst)
        refine ⟨?_, ?_, ?_⟩ <;> rintro rfl <;> exact absurd hnum (by decide)
    · rw [hstring] at heq
      have hlen := congrArg length heq
      unfold jsonStringify at hlen
      rw [length_cons, length_append] at hlen
      have hle := length_le_escape (trim value)
      omega
  by_cases hquote : raw.head? = some '"'
  · rw [if_pos hquote] at hread
    rcases hbuild with ⟨heq, -⟩ | ⟨heq, -⟩
    · exact absurd rfl (hwords heq _ hquote).1
    · rw [heq] at h ⊢
      exact (token_unique (token_of_parse hread) (token_stringify _) h).1
  rw [if_neg hquote] at hread
  by_cases hbracket : raw.head? = some '[' ∨ raw.head? = some '\x7b'
  · rcases hbuild with ⟨heq, -⟩ | ⟨heq, -⟩
    · rcases hbracket with hb | hb
      · exact absurd rfl (hwords heq _ hb).2.1
      · exact absurd rfl (hwords heq _ hb).2.2
    · have hfirst : raw.head? = some '"' := by
        rw [← head_append htight.ne_nil x, h, heq]
        rfl
      exact absurd hfirst hquote
  · rw [if_neg hbracket] at hread
    cases hread

omit structured in
theorem last_of_append {s t : Text} (h : Tight (s ++ t)) (ht : t ≠ []) : t.getLast?.any isBlank = false := by
  have hlast := h.last
  rw [getLast?_append] at hlast
  cases hl : t.getLast? with
  | none => exact absurd (getLast?_eq_none_iff.1 hl) ht
  | some =>
    rw [hl] at hlast
    exact hlast

omit structured in
theorem buildExprLiteral_head (value : Text) :
    buildExprLiteral .eq value ≠ [] ∧ (buildExprLiteral .eq value).head?.any isBlank = false := by
  rcases buildExprLiteral_cases value with ⟨heq, hwords⟩ | ⟨heq, -⟩
  · rw [heq]
    rcases hwords with h | h | h
    · rw [h]
      exact ⟨by decide, by decide⟩
    · rw [h]
      exact ⟨by decide, by decide⟩
    · exact ⟨(numeral_of_literal h).1, (numeral_of_literal h).tight.head⟩
  · rw [heq]
    exact ⟨cons_ne_nil _ _, rfl⟩

/-- A shape that means a condition and begins with its word and path is the shape of the condition. -/
theorem shape_eq {σ : Shape} {p x y : Text} {parens : Bool} (hc : Complete c)
    (hσ : σ.Valid) (hmeans : Means structured p σ c.trimmed) (htight : Tight (σ.text p))
    (hword : σ.word = (shapeOf p parens c).word) (hrest : σ.rest p ++ x = (shapeOf p parens c).rest p ++ y) :
    σ = shapeOf p parens c := by
  revert hmeans hword hrest
  refine hc.cases (P := fun c => Means structured p σ c.trimmed → σ.word = (shapeOf p parens c).word →
    σ.rest p ++ x = (shapeOf p parens c).rest p ++ y → σ = shapeOf p parens c) ?_ ?_ ?_ ?_ ?_ ?_
  · intro source path value _ hmeans _ _
    cases source with
    | param =>
      cases hmeans with
      | paramExists => rfl
      | compare _ _ h => exact absurd h (by decide)
    | header =>
      cases hmeans with
      | headerExists => rfl
  · intro source path value _ hmeans _ hrest
    cases source with
    | param =>
      cases hmeans with
      | paramContains literal =>
        have hcall := cancel_front " != nil && has(param".toList ((append_assoc _ _ _).symm.trans
          (hrest.trans (append_assoc _ _ _)))
        rw [called_append, called_append] at hcall
        obtain ⟨-, -, htail⟩ := called_unique not_mem_nil not_mem_nil hσ.1.2 hσ.1.2 hcall
        have hliteral : (literal ++ [')']) ++ x = (jsonStringify (trim value) ++ [')']) ++ y :=
          cancel_front ", ".toList htail
        rw [append_assoc, append_assoc] at hliteral
        rw [(token_unique hσ.2 (token_stringify _) hliteral).1]
        rfl
      | compare _ _ h => exact absurd h (by decide)
    | header =>
      cases hmeans with
      | headerContains literal =>
        have hliteral : (literal ++ [')']) ++ x = (jsonStringify (trim value) ++ [')']) ++ y :=
          cancel_front ", ".toList hrest
        rw [append_assoc, append_assoc] at hliteral
        rw [(token_unique hσ (token_stringify _) hliteral).1]
        rfl
  · intro path mode value _ hmode _ hmeans _ _
    rw [shapeOf_compare hmode]
    have hvalue : (RequestCondition.paramHeader .param path mode value).trimmed =
        .paramHeader .param path mode (trim value) := by
      simp only [mem_cons, not_mem_nil, or_false] at hmode
      rcases hmode with rfl | rfl | rfl | rfl <;> rfl
    rw [hvalue] at hmeans
    generalize trim value = v at hmeans ⊢
    cases hmeans with
    | compare => rfl
    | paramExists | paramContains | equality => exact absurd hmode (by decide)
  · intro source path value _ hmeans _ hrest
    rw [shapeOf_eq] at hrest ⊢
    cases hmeans with
    | equality _ raw _ hparse =>
      have hraw : raw ++ x = buildExprLiteral .eq value ++ y := cancel_front " == ".toList hrest
      obtain ⟨hne, hhead⟩ := buildExprLiteral_head value
      have hrawTight : Tight raw := by
        refine ⟨hσ.1, ?_, ?_⟩
        · rw [← head_append hσ.1 x, hraw, head_append hne]
          exact hhead
        · have hsplit : (Shape.equality source raw).text p = called source.key p " == ".toList ++ raw :=
            (called_append _ _ _ _).symm
          have hraw' : raw ≠ [] := hσ.1
          rw [hsplit] at htight
          exact last_of_append htight hraw'
      rw [literal_eq hrawTight hparse hraw]
    | compare _ _ h => exact absurd h (by decide)
  · intro f zone value a b _ _ _ hmeans hword _
    have hshape : shapeOf p parens (.time f zone .range value a b) = .range f (trim a) (trim b) parens := rfl
    have hvalue : (RequestCondition.time f zone .range value a b).trimmed =
        .time f zone .range [] (trim a) (trim b) := rfl
    rw [hvalue] at hmeans
    rw [hshape] at hword ⊢
    generalize trim a = a' at hmeans hword ⊢
    generalize trim b = b' at hmeans hword ⊢
    cases hmeans with
    | range _ _ _ parens' =>
      have hparens : parens' = parens := by
        cases parens <;> cases parens'
        · rfl
        · exact absurd (congrArg length hword) (Nat.succ_ne_self _)
        · exact absurd (congrArg length hword).symm (Nat.succ_ne_self _)
        · rfl
      rw [hparens]
    | single _ _ _ h => exact absurd h (by decide)
  · intro f zone mode value a b _ hmode _ hmeans _ _
    rw [shapeOf_single hmode]
    have hvalue : (RequestCondition.time f zone mode value a b).trimmed = .time f zone mode (trim value) [] [] := by
      simp only [mem_cons, not_mem_nil, or_false] at hmode
      rcases hmode with rfl | rfl | rfl <;> rfl
    rw [hvalue] at hmeans
    generalize trim value = v at hmeans ⊢
    cases hmeans with
    | range => exact absurd hmode (by decide)
    | single => rfl

omit structured in
theorem mem_of_mem_trim {c : Char} {s : Text} (h : c ∈ trim s) : c ∈ s := by
  unfold trim at h
  have hdrop := (dropWhile_sublist isBlank).subset (mem_reverse.1 h)
  exact (dropWhile_sublist isBlank).subset (mem_reverse.1 hdrop)

omit structured in
theorem written_quote (h : '"' ∉ c.place) : '"' ∉ c.written := by
  cases c with
  | paramHeader => exact escape_quote fun hmem => h (mem_of_mem_trim hmem)
  | time => exact escape_quote h

omit structured in
theorem word_quote (σ : Shape) : '"' ∉ σ.word := by
  rw [σ.word_eq]
  exact σ.kind.text_quote

omit structured in
/-- A path that is written as it stands has nothing to escape. -/
theorem writable_of_written (hc : Complete c) (h : c.place = c.written)
    (hvalue : ∀ source path value, c = .paramHeader source path .eq value →
      ∀ ch ∈ trim value, ch.toNat ∉ [0x2028, 0x2029]) : Writable c := by
  cases c with
  | paramHeader source path _ value =>
    obtain ⟨htrim, hplain⟩ := path_of_escape hc.2.1 h
    refine ⟨htrim, hplain, ?_⟩
    rintro rfl
    exact hvalue source path value rfl
  | time => exact escape_eq_iff.1 h.symm

/-- A text that is read as a condition, and begins as the text of this condition, is the text of this condition. -/
theorem part_eq {s x y : Text} {parens : Bool} (hc : Complete c) (htight : Tight s)
    (hread : tryParseRequestCondition structured s = .ok (some c.trimmed))
    (h : s ++ x = (shapeOf c.written parens c).text c.written ++ y) :
    s = (shapeOf c.written parens c).text c.written ∧ Writable c := by
  obtain ⟨σ, p, hσ, hp, rfl, hmeaning⟩ := tryParse_some structured hread
  have hmeans := means_of_meaning hσ hmeaning
  have hplace : c.place = p := by
    rw [← trimmed_place c]
    exact hmeans.place
  have hquote : '"' ∉ c.written := by
    refine written_quote ?_
    rw [hplace]
    exact hp.2
  unfold Shape.text at h
  rw [called_append, called_append] at h
  obtain ⟨hword, hpath, hrest⟩ := called_unique (word_quote σ) (word_quote _) hp.2 hquote h
  rw [← hpath] at hword hrest ⊢
  have hshape := shape_eq hc hσ hmeans htight hword hrest
  refine ⟨by rw [hshape], writable_of_written hc (hplace.trans hpath) ?_⟩
  rintro source path value rfl
  rw [hshape, shapeOf_eq] at hσ
  exact literal_isDot.1 hσ.2

/-- No text in parentheses is read as a condition but a range. -/
theorem not_in_parens {s x y : Text} (hc : Complete c) (hnot : c.isRange = false)
    (hread : tryParseRequestCondition structured s = .ok (some c.trimmed))
    (h : s ++ x = '(' :: ((shapeOf c.written false c).text c.written ++ y)) : False := by
  obtain ⟨σ, p, hσ, hp, rfl, hmeaning⟩ := tryParse_some structured hread
  have hmeans := means_of_meaning hσ hmeaning
  have hfirst : σ.word.head? = some '(' := by
    have hword : σ.word ≠ [] := by
      rw [σ.word_eq]
      cases σ.kind with
      | time f => cases f <;> exact cons_ne_nil _ _
      | paren | hasHeader => exact cons_ne_nil _ _
      | request source => cases source <;> exact cons_ne_nil _ _
    have hhead := congrArg head? h
    unfold Shape.text called at hhead
    rw [append_assoc, head_append hword] at hhead
    exact hhead
  have hkind : ∃ f, σ.kind = .paren f := by
    rw [σ.word_eq] at hfirst
    cases hk : σ.kind with
    | paren f => exact ⟨f, rfl⟩
    | time f =>
      rw [hk] at hfirst
      cases f <;> exact absurd hfirst (by decide)
    | request source =>
      rw [hk] at hfirst
      cases source <;> exact absurd hfirst (by decide)
    | hasHeader =>
      rw [hk] at hfirst
      exact absurd hfirst (by decide)
  obtain ⟨g, hkind⟩ := hkind
  have hrange : ∃ f a b, c.trimmed = .time f p .range [] a b := by
    generalize c.trimmed = d at hmeans ⊢
    cases hmeans with
    | range f a b => exact ⟨f, a, b, rfl⟩
    | _ => cases hkind
  obtain ⟨f, a, b, hrange⟩ := hrange
  cases c with
  | paramHeader => cases hrange
  | time _ _ mode =>
    cases mode with
    | range => cases hnot
    | _ => cases hrange

end

end NovaMaas.Pricing
