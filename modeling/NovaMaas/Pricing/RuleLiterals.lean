/-
  Literals and paths of a condition, written and read back.

  A string is written as JSON and read back as the same string (`jsonParseString_stringify`).  Its text is the string
  itself if and only if there is nothing to escape in it (`escape_eq_iff`): this is what a path or a time zone needs,
  since these are read WITHOUT taking the escapes back.
-/
import NovaMaas.Pricing.RuleShapes

open List Option

namespace NovaMaas.Pricing

open Pattern Places

/-! ## Numeric literals -/

theorem numeral_of_digits {s t rest : Text} (h : (t, rest) ∈ digits.run s) :
    s = t ++ rest ∧ t ≠ [] ∧ ∀ c ∈ t, isNumeral c = true := by
  obtain ⟨heq, hne, hall⟩ := mem_atLeastOne.1 h
  refine ⟨heq, hne, fun c hc => ?_⟩
  unfold isNumeral
  rw [hall c hc]
  rfl

/-- A pattern that takes characters of numbers only. -/
def TakesNumeral {α : Type} (r : Pattern α) : Prop :=
  ∀ s a rest, (a, rest) ∈ r.run s → ∃ t, s = t ++ rest ∧ ∀ c ∈ t, isNumeral c = true

variable {α : Type}

theorem TakesNumeral.andThen {β : Type} {r : Pattern α} {k : α → Pattern β} (hr : TakesNumeral r)
    (hk : ∀ a, TakesNumeral (k a)) : TakesNumeral (r.andThen k) := by
  intro s b rest h
  obtain ⟨a, mid, ha, hb⟩ := mem_andThen.1 h
  obtain ⟨t, rfl, ht⟩ := hr s a mid ha
  obtain ⟨u, rfl, hu⟩ := hk a mid b rest hb
  refine ⟨t ++ u, (append_assoc t u rest).symm, fun c hc => ?_⟩
  rcases mem_append.1 hc with hc | hc
  · exact ht c hc
  · exact hu c hc

theorem takesNumeral_give (a : α) : TakesNumeral (give a) := by
  intro s b rest h
  obtain ⟨-, rfl⟩ := mem_give.1 h
  exact ⟨[], rfl, by simp⟩

theorem TakesNumeral.map {β : Type} {r : Pattern α} (hr : TakesNumeral r) (f : α → β) : TakesNumeral (r.map f) :=
  hr.andThen fun a => takesNumeral_give (f a)

theorem TakesNumeral.or {r r' : Pattern α} (hr : TakesNumeral r) (hr' : TakesNumeral r') :
    TakesNumeral (r.or r') := by
  intro s a rest h
  rcases mem_or.1 h with h | h
  · exact hr s a rest h
  · exact hr' s a rest h

theorem TakesNumeral.optional {r : Pattern α} (hr : TakesNumeral r) : TakesNumeral r.optional :=
  (hr.map some).or (takesNumeral_give none)

theorem takesNumeral_one {p : Char → Bool} (h : ∀ c, p c = true → isNumeral c = true) : TakesNumeral (one p) := by
  intro s c rest hm
  obtain ⟨rfl, hc⟩ := mem_one.1 hm
  exact ⟨[c], rfl, fun d hd => by rw [mem_singleton.1 hd]; exact h c hc⟩

theorem takesNumeral_lit {w : Text} (h : ∀ c ∈ w, isNumeral c = true) : TakesNumeral (lit w) :=
  fun _ _ _ hm => ⟨w, mem_lit.1 hm, h⟩

variable {c : Char}

theorem isNumeral_digit (h : c.isDigit = true) : isNumeral c = true := by
  unfold isNumeral
  rw [h]
  rfl

theorem takesNumeral_many : TakesNumeral (many Char.isDigit) := by
  intro s t rest hm
  obtain ⟨rfl, hall⟩ := mem_many.1 hm
  exact ⟨t, rfl, fun c hc => isNumeral_digit (hall c hc)⟩

theorem takesNumeral_digits : TakesNumeral digits := by
  intro s t rest hm
  obtain ⟨rfl, -, hall⟩ := numeral_of_digits hm
  exact ⟨t, rfl, hall⟩

theorem isNumeral_of_sign (h : (c == '+' || c == '-') = true) : isNumeral c = true := by
  rw [Bool.or_eq_true, beq_iff_eq, beq_iff_eq] at h
  rcases h with rfl | rfl <;> decide

theorem isNumeral_of_e (h : (c == 'e' || c == 'E') = true) : isNumeral c = true := by
  rw [Bool.or_eq_true, beq_iff_eq, beq_iff_eq] at h
  rcases h with rfl | rfl <;> decide

/-- A numeric literal has the characters of a number only. -/
theorem numeral_of_literal {t : Text} (h : isNumericLiteral t = true) : Numeral t := by
  obtain ⟨u, hu⟩ := isSome_iff_exists.1 h
  have hmem := execWhole_some hu
  have hpoint : TakesNumeral (lit ['.']) := takesNumeral_lit (by simp; decide)
  have hexponent : TakesNumeral (((one fun c => c == 'e' || c == 'E').andThen fun _ =>
      (optional (one fun c => c == '+' || c == '-')).andThen fun _ => digits)) :=
    (takesNumeral_one fun _ => isNumeral_of_e).andThen fun _ =>
      (takesNumeral_one fun _ => isNumeral_of_sign).optional.andThen fun _ => takesNumeral_digits
  have hall : TakesNumeral numericLiteralRegex :=
    (takesNumeral_lit (by simp; decide)).optional.andThen fun _ =>
      ((takesNumeral_digits.andThen fun _ => hpoint.optional.andThen fun _ => takesNumeral_many.map _).or
        (hpoint.andThen fun _ => takesNumeral_digits.map _)).andThen fun _ => hexponent.optional.map _
  obtain ⟨v, hv, hnumeral⟩ := hall t u [] hmem
  rw [append_nil] at hv
  subst hv
  refine ⟨?_, hnumeral⟩
  rintro rfl
  exact absurd h (by decide)

theorem Numeral.tight {t : Text} (h : Numeral t) : Tight t := by
  refine ⟨h.1, ?_, ?_⟩
  · cases t with
    | nil => rfl
    | cons c => exact not_blank_numeral (h.2 c mem_cons_self)
  · cases hlast : t.getLast? with
    | none => rfl
    | some c => exact not_blank_numeral (h.2 c (mem_of_getLast? hlast))

/-! ## JSON strings -/

/-- A character that is written as itself. -/
def PlainChar (c : Char) : Prop := c ≠ '"' ∧ c ≠ '\\' ∧ 0x20 ≤ c.toNat

instance (c : Char) : Decidable (PlainChar c) := inferInstanceAs (Decidable (_ ∧ _ ∧ _))

theorem escapeChar_plain (h : PlainChar c) : escapeChar c = [c] := by
  obtain ⟨hquote, hback, hcode⟩ := h
  have hn : c ≠ '\n' := by rintro rfl; exact absurd hcode (by decide)
  have hr : c ≠ '\r' := by rintro rfl; exact absurd hcode (by decide)
  have ht : c ≠ '\t' := by rintro rfl; exact absurd hcode (by decide)
  unfold escapeChar
  rw [if_neg hquote, if_neg hback, if_neg (by omega), if_neg (by omega), if_neg hn, if_neg hr, if_neg ht,
    if_neg (by omega)]

/-- What an escape looks like, and that it is read back. -/
theorem escapeChar_escaped (h : ¬ PlainChar c) :
    ∃ d u, escapeChar c = '\\' :: d :: u ∧ isDot d = true ∧ (∀ e ∈ u, PlainChar e ∧ isBlank e = false) ∧
      isBlank d = false ∧ ∀ rest, jsonChars ('\\' :: d :: u ++ rest) = (jsonChars rest).map fun r => (c :: r.1, r.2) := by
  by_cases hquote : c = '"'
  · subst hquote
    exact ⟨'"', [], rfl, by decide, by simp, by decide, fun rest => by simp [jsonChars, shortEscape]⟩
  by_cases hback : c = '\\'
  · subst hback
    exact ⟨'\\', [], rfl, by decide, by simp, by decide, fun rest => by simp [jsonChars, shortEscape]⟩
  have hcode : c.toNat < 0x20 := by
    by_contra hge
    exact h ⟨hquote, hback, by omega⟩
  have hchar : c = Char.ofNat c.toNat := (Char.ofNat_toNat c).symm
  have hall : ∀ n < 0x20, ∃ d u, escapeChar (Char.ofNat n) = '\\' :: d :: u ∧ isDot d = true ∧
      (∀ e ∈ u, PlainChar e ∧ isBlank e = false) ∧ isBlank d = false ∧
      ((u = [] ∧ d ≠ 'u' ∧ shortEscape d = some (Char.ofNat n)) ∨
        ∃ a b e f, d = 'u' ∧ u = [a, b, e, f] ∧ hexChar a b e f = some (Char.ofNat n)) := by
    intro n hn
    have hcases : (n = 8 ∨ n = 9 ∨ n = 10 ∨ n = 12 ∨ n = 13) ∨ (n ≠ 8 ∧ n ≠ 9 ∧ n ≠ 10 ∧ n ≠ 12 ∧ n ≠ 13) := by omega
    rcases hcases with hshort | hlong
    · rcases hshort with rfl | rfl | rfl | rfl | rfl
      · exact ⟨'b', [], by decide, by decide, by simp, by decide, Or.inl ⟨rfl, by decide, by decide⟩⟩
      · exact ⟨'t', [], by decide, by decide, by simp, by decide, Or.inl ⟨rfl, by decide, by decide⟩⟩
      · exact ⟨'n', [], by decide, by decide, by simp, by decide, Or.inl ⟨rfl, by decide, by decide⟩⟩
      · exact ⟨'f', [], by decide, by decide, by simp, by decide, Or.inl ⟨rfl, by decide, by decide⟩⟩
      · exact ⟨'r', [], by decide, by decide, by simp, by decide, Or.inl ⟨rfl, by decide, by decide⟩⟩
    · refine ⟨'u', ['0', '0', hexDigit (n / 16), hexDigit (n % 16)], ?_, by decide, ?_, by decide,
        Or.inr ⟨_, _, _, _, rfl, rfl, ?_⟩⟩
      · have hlist : ∀ n < 0x20, (n ≠ 8 ∧ n ≠ 9 ∧ n ≠ 10 ∧ n ≠ 12 ∧ n ≠ 13) → escapeChar (Char.ofNat n) =
            ['\\', 'u', '0', '0', hexDigit (n / 16), hexDigit (n % 16)] := by decide
        exact hlist n hn hlong
      · have hlist : ∀ n < 0x20, (['0', '0', hexDigit (n / 16), hexDigit (n % 16)].all fun e =>
            decide (PlainChar e) && !isBlank e) = true := by decide
        intro e he
        have hone := List.all_eq_true.1 (hlist n hn) e he
        rw [Bool.and_eq_true, decide_eq_true_eq, Bool.not_eq_true'] at hone
        exact hone
      · have hlist : ∀ n < 0x20, hexChar '0' '0' (hexDigit (n / 16)) (hexDigit (n % 16)) = some (Char.ofNat n) := by
          decide
        exact hlist n hn
  obtain ⟨d, u, hescape, hdot, hplain, hblank, hread⟩ := hall c.toNat hcode
  rw [← hchar] at hescape hread
  refine ⟨d, u, hescape, hdot, hplain, hblank, fun rest => ?_⟩
  rcases hread with ⟨rfl, hd, hshort⟩ | ⟨a, b, e, f, rfl, rfl, hhex⟩
  · show jsonChars ('\\' :: d :: rest) = _
    rw [jsonChars.eq_4 _ _ (by rintro _ _ _ _ _ rfl _; exact hd rfl), hshort]
    rfl
  · show jsonChars ('\\' :: 'u' :: a :: b :: e :: f :: rest) = _
    rw [jsonChars, hhex]
    rfl

theorem jsonChars_plain (h : PlainChar c) (rest : Text) :
    jsonChars (c :: rest) = (jsonChars rest).map fun r => (c :: r.1, r.2) := by
  have hcode : ¬ c.toNat < 0x20 := by
    have := h.2.2
    omega
  rw [jsonChars.eq_5 _ _ h.1 (fun _ _ _ _ _ hc _ => absurd hc h.2.1) (fun _ _ hc _ => absurd hc h.2.1),
    if_neg (not_or.2 ⟨hcode, h.2.1⟩)]

/-- A written string is read back. -/
theorem jsonChars_escape (s rest : Text) : jsonChars (escape s ++ '"' :: rest) = some (s, rest) := by
  induction s with
  | nil => rfl
  | cons c s ih =>
    have hcons : escape (c :: s) ++ '"' :: rest = escapeChar c ++ (escape s ++ '"' :: rest) := by
      unfold escape
      rw [flatMap_cons, append_assoc]
    rw [hcons]
    by_cases hplain : PlainChar c
    · rw [escapeChar_plain hplain, singleton_append, jsonChars_plain hplain, ih]
      rfl
    · obtain ⟨d, u, hescape, -, -, -, hread⟩ := escapeChar_escaped hplain
      rw [hescape, hread, ih]
      rfl

theorem jsonParseString_stringify (s : Text) : jsonParseString (jsonStringify s) = some s := by
  have h := jsonChars_escape s []
  unfold jsonStringify jsonParseString
  simp only
  rw [h]

theorem units_append {a b : Text} (ha : Units a) (hb : Units b) : Units (a ++ b) := by
  induction ha with
  | nil => exact hb
  | plain hquote hback _ ih => exact Units.plain hquote hback ih
  | escaped hdot _ ih => exact Units.escaped hdot ih

theorem units_of_plain {u : Text} (h : ∀ e ∈ u, PlainChar e) : Units u := by
  induction u with
  | nil => exact Units.nil
  | cons _ _ ih =>
    obtain ⟨hc, hu⟩ := forall_mem_cons.1 h
    exact Units.plain hc.1 hc.2.1 (ih hu)

theorem units_escape (s : Text) : Units (escape s) := by
  induction s with
  | nil => exact Units.nil
  | cons c s ih =>
    have hcons : escape (c :: s) = escapeChar c ++ escape s := flatMap_cons
    rw [hcons]
    refine units_append ?_ ih
    by_cases hplain : PlainChar c
    · rw [escapeChar_plain hplain]
      exact Units.plain hplain.1 hplain.2.1 Units.nil
    · obtain ⟨d, u, hescape, hdot, hu, -, -⟩ := escapeChar_escaped hplain
      rw [hescape]
      exact Units.escaped hdot (units_of_plain fun e he => (hu e he).1)

theorem token_stringify (s : Text) : Token (jsonStringify s) := ⟨escape s, rfl, units_escape s⟩

/-- What is read as a string is one string literal. -/
theorem units_of_jsonChars {s : Text} : ∀ {v rest : Text}, jsonChars s = some (v, rest) →
    ∃ b, s = b ++ '"' :: rest ∧ Units b := by
  induction s using jsonChars.induct with
  | case1 =>
    intro v rest h
    cases h
  | case2 =>
    intro v rest h
    rw [jsonChars] at h
    cases h
    exact ⟨[], rfl, Units.nil⟩
  | case3 a b c d _ ih =>
    intro v rest h
    rw [jsonChars] at h
    obtain ⟨e, hhex, h⟩ := Option.bind_eq_some_iff.1 h
    obtain ⟨⟨v', rest''⟩, hr, heq⟩ := Option.map_eq_some_iff.1 h
    cases heq
    obtain ⟨body, rfl, hbody⟩ := ih hr
    have hdigit : ∀ c, (hexValue c).isSome = true → c ≠ '"' ∧ c ≠ '\\' := by
      intro c hc
      constructor
      · rintro rfl
        exact absurd hc (by decide)
      · rintro rfl
        exact absurd hc (by decide)
    obtain ⟨na, ha, hhex⟩ := bind_eq_some_iff.1 hhex
    obtain ⟨nb, hb, hhex⟩ := bind_eq_some_iff.1 hhex
    obtain ⟨nc, hc, hhex⟩ := bind_eq_some_iff.1 hhex
    obtain ⟨nd, hd, -⟩ := bind_eq_some_iff.1 hhex
    have ha' := hdigit a (by rw [ha]; rfl)
    have hb' := hdigit b (by rw [hb]; rfl)
    have hc' := hdigit c (by rw [hc]; rfl)
    have hd' := hdigit d (by rw [hd]; rfl)
    exact ⟨'\\' :: 'u' :: a :: b :: c :: d :: body, rfl, Units.escaped (by decide) (Units.plain ha'.1 ha'.2
      (Units.plain hb'.1 hb'.2 (Units.plain hc'.1 hc'.2 (Units.plain hd'.1 hd'.2 hbody))))⟩
  | case4 c _ hnot ih =>
    intro v rest h
    rw [jsonChars.eq_4 _ _ hnot] at h
    obtain ⟨e, hshort, h⟩ := bind_eq_some_iff.1 h
    obtain ⟨⟨v', rest''⟩, hr, heq⟩ := map_eq_some_iff.1 h
    cases heq
    obtain ⟨body, rfl, hbody⟩ := ih hr
    have hdot : isDot c = true := by
      unfold isDot
      rw [decide_eq_true_eq]
      intro hmem
      simp only [mem_cons, not_mem_nil, or_false] at hmem
      have hchar : c = Char.ofNat c.toNat := (Char.ofNat_toNat c).symm
      have hnone : ∀ n ∈ [0x0A, 0x0D, 0x2028, 0x2029], shortEscape (Char.ofNat n) = none := by decide
      have hend : shortEscape c = none := by
        rw [hchar]
        refine hnone _ ?_
        simp only [mem_cons, not_mem_nil, or_false]
        exact hmem
      rw [hend] at hshort
      cases hshort
    exact ⟨'\\' :: c :: body, rfl, Units.escaped hdot hbody⟩
  | case5 _ _ hquote hu hback hor =>
    intro v rest h
    rw [jsonChars.eq_5 _ _ hquote hu hback, if_pos hor] at h
    cases h
  | case6 c _ hquote hu hback hor ih =>
    intro v rest h
    rw [jsonChars.eq_5 _ _ hquote hu hback, if_neg hor] at h
    obtain ⟨⟨v', rest''⟩, hr, heq⟩ := map_eq_some_iff.1 h
    cases heq
    obtain ⟨body, rfl, hbody⟩ := ih hr
    exact ⟨c :: body, rfl, Units.plain hquote (not_or.1 hor).2 hbody⟩

theorem token_of_parse {s v : Text} (h : jsonParseString s = some v) : Token s := by
  unfold jsonParseString at h
  split at h
  · split at h
    · rename_i rest s' hchars
      obtain ⟨b, hb, hunits⟩ := units_of_jsonChars hchars
      exact ⟨b, by rw [hb], hunits⟩
    · cases h
  · cases h

/-! ## Escapes and paths -/

theorem escape_cons (c : Char) (s : Text) : escape (c :: s) = escapeChar c ++ escape s := flatMap_cons

theorem escape_append (s t : Text) : escape (s ++ t) = escape s ++ escape t := flatMap_append

theorem length_le_escape (s : Text) : s.length ≤ (escape s).length := by
  induction s with
  | nil => exact Nat.zero_le _
  | cons c =>
    rw [escape_cons, length_cons, length_append]
    by_cases hplain : PlainChar c
    · rw [escapeChar_plain hplain, length_singleton]
      omega
    · obtain ⟨d, u, hescape, -⟩ := escapeChar_escaped hplain
      rw [hescape, length_cons, length_cons]
      omega

/-- A string is written as itself if and only if there is nothing to escape in it. -/
theorem escape_eq_iff {s : Text} : escape s = s ↔ ∀ c ∈ s, PlainChar c := by
  induction s with
  | nil => exact ⟨fun _ => by simp, fun _ => rfl⟩
  | cons c s ih =>
    rw [escape_cons, forall_mem_cons, ← ih]
    constructor
    · intro h
      by_cases hplain : PlainChar c
      · rw [escapeChar_plain hplain] at h
        exact ⟨hplain, (cons.inj h).2⟩
      · obtain ⟨d, u, hescape, -⟩ := escapeChar_escaped hplain
        have hlen := congrArg length h
        rw [hescape, length_append, length_cons, length_cons, length_cons] at hlen
        have hle := length_le_escape s
        omega
    · rintro ⟨hplain, hs⟩
      rw [escapeChar_plain hplain, hs]
      rfl

theorem escapeChar_quote (h : c ≠ '"') : '"' ∉ escapeChar c := by
  by_cases hplain : PlainChar c
  · rw [escapeChar_plain hplain, mem_singleton]
    exact fun hc => h hc.symm
  · obtain ⟨d, u, hescape, -, hu, -, hread⟩ := escapeChar_escaped hplain
    rw [hescape]
    intro hmem
    rcases mem_cons.1 hmem with hmem | hmem
    · exact absurd hmem (by decide)
    · rcases mem_cons.1 hmem with rfl | hmem
      · -- the only escape with a quotation mark is that of a quotation mark
        have hquote := hread ['"']
        rw [List.cons_append, List.cons_append] at hquote
        have hleft : jsonChars ('\\' :: '"' :: (u ++ ['"'])) = (jsonChars (u ++ ['"'])).map fun r => ('"' :: r.1, r.2) := by
          rw [jsonChars.eq_4 _ _ (by rintro _ _ _ _ _ hd _; exact absurd hd (by decide))]
          rfl
        have hright : jsonChars ['"'] = some ([], []) := rfl
        rw [hleft, hright] at hquote
        obtain ⟨r, -, hr⟩ := map_eq_some_iff.1 hquote
        exact h (cons.inj (Prod.mk.inj hr).1).1.symm
      · exact absurd rfl (hu _ hmem).1.1

theorem escape_quote {s : Text} (h : '"' ∉ s) : '"' ∉ escape s := by
  intro hmem
  obtain ⟨c, hc, hquote⟩ := mem_flatMap.1 hmem
  refine escapeChar_quote ?_ hquote
  rintro rfl
  exact h hc

/-- An escaped text has no white space at its ends, if the text has none. -/
theorem Tight.escape {s : Text} (h : Tight s) : Tight (escape s) := by
  have hone : ∀ c, isBlank c = false → Tight (escapeChar c) := by
    intro c hc
    by_cases hplain : PlainChar c
    · rw [escapeChar_plain hplain]
      exact ⟨cons_ne_nil _ _, hc, hc⟩
    · obtain ⟨d, u, hescape, -, hu, hd, -⟩ := escapeChar_escaped hplain
      rw [hescape]
      refine ⟨cons_ne_nil _ _, rfl, ?_⟩
      cases hlast : ('\\' :: d :: u).getLast? with
      | none => rfl
      | some e =>
        rcases mem_cons.1 (mem_of_getLast? hlast) with rfl | he
        · rfl
        · rcases mem_cons.1 he with rfl | he
          · exact hd
          · exact (hu e he).2
  obtain ⟨hne, hhead, hlast⟩ := h
  refine ⟨?_, ?_, ?_⟩
  · intro hnil
    have hlen := length_le_escape s
    rw [hnil] at hlen
    exact hne (eq_nil_of_length_eq_zero (Nat.le_zero.1 hlen))
  · cases s with
    | nil => exact absurd rfl hne
    | cons c =>
      have htight := hone c hhead
      rw [escape_cons, head?_append_of_ne_nil _ htight.ne_nil]
      exact htight.head
  · rcases eq_nil_or_concat s with rfl | ⟨s, c, rfl⟩
    · exact absurd rfl hne
    · rw [concat_eq_append] at hlast ⊢
      rw [getLast?_concat] at hlast
      have htight := hone c hlast
      have hsplit : NovaMaas.Pricing.escape (s ++ [c]) = NovaMaas.Pricing.escape s ++ escapeChar c := by
        rw [escape_append, escape_cons]
        exact congrArg _ (append_nil _)
      rw [hsplit, getLast?_append]
      cases hl : (escapeChar c).getLast? with
      | none => exact absurd (getLast?_eq_none_iff.1 hl) htight.ne_nil
      | some =>
        have hd := htight.last
        rw [hl] at hd
        exact hd

theorem tight_trim {s : Text} (h : trim s ≠ []) : Tight (trim s) := by
  have hdrop : trim s = trim (s.dropWhile isBlank) := by
    unfold trim
    rw [dropWhile_idempotent]
  have hhead : (s.dropWhile isBlank).head?.any isBlank = false := by
    cases hd : s.dropWhile isBlank with
    | nil => rfl
    | cons =>
      have hhead := head?_dropWhile_not isBlank s
      rw [hd] at hhead
      simpa using hhead
  rw [hdrop] at h ⊢
  have hne : s.dropWhile isBlank ≠ [] := by
    intro hnil
    rw [hnil] at h
    exact h rfl
  obtain ⟨-, -, -, htight⟩ := trim_of_head hne hhead
  exact htight

/-- A path that is its own trimmed and escaped text is not padded and has nothing to escape. -/
theorem path_of_escape {p : Text} (hne : trim p ≠ []) (h : p = escape (trim p)) :
    trim p = p ∧ ∀ c ∈ p, PlainChar c := by
  have htight : Tight p := by
    rw [h]
    exact (tight_trim hne).escape
  have htrim := htight.trim_eq
  rw [htrim] at h
  exact ⟨htrim, escape_eq_iff.1 h.symm⟩

end NovaMaas.Pricing
