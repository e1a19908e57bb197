/-
  The shapes of a condition in a text.

  Each of the regular expressions for a condition matches texts of one shape: a word, a path in quotation marks and
  parentheses, and what follows it (`Shape`).  A text has at most one shape (`shape_unique`), so the order in which the
  regular expressions are tried does not matter: a text is read as what its shape means (`tryParse_shape`), and a text
  without a shape is not read (`tryParse_some`).
-/
import NovaMaas.Pricing.RuleScan

open List hiding mem_map

namespace NovaMaas.Pricing

open Pattern Places

/-! ## String literals -/

/-- The characters of a string literal: no quotation mark but behind a backslash. -/
inductive Units : Text → Prop
  | nil : Units []
  | plain {c : Char} {b : Text} (hquote : c ≠ '"') (hback : c ≠ '\\') (hb : Units b) : Units (c :: b)
  | escaped {c : Char} {b : Text} (hdot : isDot c = true) (hb : Units b) : Units ('\\' :: c :: b)

/-- A string literal ends at its own quotation mark. -/
theorem units_unique {a b x y : Text} (ha : Units a) (hb : Units b) (h : a ++ '"' :: x = b ++ '"' :: y) :
    a = b ∧ x = y := by
  induction ha generalizing b with
  | nil =>
    cases hb with
    | nil => exact ⟨rfl, (List.cons.inj h).2⟩
    | plain hquote => exact absurd (List.cons.inj h).1.symm hquote
    | escaped => exact absurd (List.cons.inj h).1 (by decide)
  | plain hquote hback _ ih =>
    cases hb with
    | nil => exact absurd (List.cons.inj h).1 hquote
    | plain _ _ hb =>
      obtain ⟨rfl, htail⟩ := List.cons.inj h
      obtain ⟨rfl, hrest⟩ := ih hb htail
      exact ⟨rfl, hrest⟩
    | escaped => exact absurd (List.cons.inj h).1 hback
  | escaped _ _ ih =>
    cases hb with
    | nil => exact absurd (List.cons.inj h).1 (by decide)
    | plain _ hback => exact absurd (List.cons.inj h).1.symm hback
    | escaped _ hb =>
      obtain ⟨rfl, htail⟩ := List.cons.inj (List.cons.inj h).2
      obtain ⟨rfl, hrest⟩ := ih hb htail
      exact ⟨rfl, hrest⟩

def Token (literal : Text) : Prop := ∃ b, literal = '"' :: (b ++ ['"']) ∧ Units b

/-- A string literal is known by the text that begins with it. -/
theorem token_unique {l m x y : Text} (hl : Token l) (hm : Token m) (h : l ++ x = m ++ y) : l = m ∧ x = y := by
  obtain ⟨a, rfl, ha⟩ := hl
  obtain ⟨b, rfl, hb⟩ := hm
  have hbody : a ++ '"' :: x = b ++ '"' :: y := by
    simpa only [List.cons_append, List.append_assoc, List.nil_append, List.cons.injEq, true_and] using h
  obtain ⟨rfl, rfl⟩ := units_unique ha hb hbody
  exact ⟨rfl, rfl⟩

/-- One character of a string literal, as the regular expression takes it. -/
def unitPat : Pattern Unit :=
  or ((one fun c => c != '"' && c != '\\').map fun _ => ()) ((lit ['\\']).andThen fun _ => (one isDot).map fun _ => ())

/-- What the starred pattern takes is a run of such characters. -/
theorem units_of_repeated {n : ℕ} {s rest : Text} {us : List Unit} (h : (us, rest) ∈ (repeated unitPat n).run s) :
    ∃ b, s = b ++ rest ∧ Units b := by
  induction n generalizing s us with
  | zero =>
    obtain ⟨-, rfl⟩ := mem_give.1 h
    exact ⟨[], rfl, Units.nil⟩
  | succ _ ih =>
    rcases mem_or.1 h with h | h
    · obtain ⟨_, mid, hunit, h⟩ := mem_andThen.1 h
      obtain ⟨us', hmore, -⟩ := mem_map.1 h
      obtain ⟨b, rfl, hb⟩ := ih hmore
      rcases mem_or.1 hunit with hunit | hunit
      · obtain ⟨c, hc, -⟩ := mem_map.1 hunit
        obtain ⟨rfl, hplain⟩ := mem_one.1 hc
        rw [Bool.and_eq_true, bne_iff_ne, bne_iff_ne] at hplain
        exact ⟨c :: b, rfl, Units.plain hplain.1 hplain.2 hb⟩
      · obtain ⟨_, mid', hback, hunit⟩ := mem_andThen.1 hunit
        obtain ⟨c, hc, -⟩ := mem_map.1 hunit
        obtain ⟨rfl, hdot⟩ := mem_one.1 hc
        exact ⟨'\\' :: c :: b, by rw [mem_lit.1 hback]; rfl, Units.escaped hdot hb⟩
    · obtain ⟨-, rfl⟩ := mem_give.1 h
      exact ⟨[], rfl, Units.nil⟩

/-- And it can take every such run. -/
theorem repeated_of_units {b : Text} (hb : Units b) (rest : Text) :
    ∀ n, b.length ≤ n → ∃ us, (us, rest) ∈ (repeated unitPat n).run (b ++ rest) := by
  induction hb with
  | nil =>
    intro n _
    cases n with
    | zero => exact ⟨[], mem_give.2 ⟨rfl, rfl⟩⟩
    | succ => exact ⟨[], mem_or.2 (Or.inr (mem_give.2 ⟨rfl, rfl⟩))⟩
  | @plain c b hquote hback _ ih =>
    intro n hn
    rw [length_cons] at hn
    obtain ⟨m, rfl⟩ : ∃ m, n = m + 1 := ⟨n - 1, by omega⟩
    obtain ⟨us, hus⟩ := ih m (by omega)
    have hplain : (c != '"' && c != '\\') = true := by
      rw [Bool.and_eq_true, bne_iff_ne, bne_iff_ne]
      exact ⟨hquote, hback⟩
    exact ⟨() :: us, mem_or.2 (Or.inl (mem_andThen.2 ⟨(), b ++ rest,
      mem_or.2 (Or.inl (mem_map.2 ⟨c, mem_one.2 ⟨rfl, hplain⟩, rfl⟩)), mem_map.2 ⟨us, hus, rfl⟩⟩))⟩
  | @escaped c b hdot _ ih =>
    intro n hn
    rw [List.length_cons, List.length_cons] at hn
    obtain ⟨m, rfl⟩ : ∃ m, n = m + 1 := ⟨n - 1, by omega⟩
    obtain ⟨us, hus⟩ := ih m (by omega)
    exact ⟨() :: us, mem_or.2 (Or.inl (mem_andThen.2 ⟨(), b ++ rest, mem_or.2 (Or.inr (mem_andThen.2 ⟨(), c :: (b ++ rest),
      mem_lit.2 rfl, mem_map.2 ⟨c, mem_one.2 ⟨rfl, hdot⟩, rfl⟩⟩)), mem_map.2 ⟨us, hus, rfl⟩⟩))⟩

theorem mem_stringLiteral {s l rest : Text} : (l, rest) ∈ stringLiteral.run s ↔ s = l ++ rest ∧ Token l := by
  constructor
  · intro h
    obtain ⟨_, h, heq⟩ := mem_captured.1 h
    obtain ⟨_, s1, h1, h⟩ := mem_andThen.1 h
    obtain ⟨us, s2, hstar, h2⟩ := mem_andThen.1 h
    obtain ⟨b, hs1, hb⟩ := units_of_repeated hstar
    have hs : s = '"' :: (b ++ ['"']) ++ rest := by
      rw [mem_lit.1 h1, hs1, mem_lit.1 h2]
      simp only [List.cons_append, List.nil_append, List.append_assoc]
    refine ⟨heq.symm, b, ?_, hb⟩
    exact List.append_cancel_right (heq.trans hs)
  · rintro ⟨rfl, b, rfl, hb⟩
    have hstar : ∃ us, (us, '"' :: rest) ∈ (star unitPat).run (b ++ '"' :: rest) :=
      repeated_of_units hb _ _ (by rw [List.length_append]; omega)
    obtain ⟨us, hus⟩ := hstar
    refine mem_captured.2 ⟨(), mem_andThen.2 ⟨(), b ++ '"' :: rest, mem_lit.2 ?_, mem_andThen.2 ⟨us, _, hus,
      mem_lit.2 rfl⟩⟩, rfl⟩
    simp only [cons_append, nil_append, append_assoc]

/-! ## Calls -/

/-- `word("path")`, and what follows it. -/
def called (word path rest : Text) : Text := word ++ '(' :: '"' :: (path ++ '"' :: ')' :: rest)

theorem called_append (word path rest x : Text) : called word path rest ++ x = called word path (rest ++ x) := by
  unfold called
  simp only [append_assoc, cons_append]

/-- The word and the path of a call are found again, for neither has a quotation mark. -/
theorem called_unique {w w' p p' r r' : Text} (hw : '"' ∉ w) (hw' : '"' ∉ w') (hp : '"' ∉ p) (hp' : '"' ∉ p')
    (h : called w p r = called w' p' r') : w = w' ∧ p = p' ∧ r = r' := by
  have hsplit : ∀ u q t : Text, called u q t = (u ++ ['(']) ++ '"' :: (q ++ '"' :: (')' :: t)) := by
    intro u q t
    unfold called
    simp only [append_assoc, cons_append, nil_append]
  rw [hsplit, hsplit] at h
  obtain ⟨hword, hrest⟩ := eq_of_first (not_mem_append hw (by decide)) (not_mem_append hw' (by decide)) h
  obtain ⟨hpath, hparen⟩ := eq_of_first hp hp' hrest
  exact ⟨append_cancel_right hword, hpath, (cons.inj hparen).2⟩

/-- A path, or a time zone: not empty and without quotation marks. -/
def Path (p : Text) : Prop := p ≠ [] ∧ '"' ∉ p

theorem mem_quoted {s p rest : Text} : (p, rest) ∈ quoted.run s ↔ s = called [] p rest ∧ Path p := by
  have hpath : Path p ↔ p ≠ [] ∧ ∀ c ∈ p, (c != '"') = true :=
    and_congr_right fun _ => ⟨fun h c hc => bne_iff_ne.2 fun heq => h (heq ▸ hc), fun h hmem => absurd (h _ hmem) (by decide)⟩
  rw [hpath]
  simp only [quoted, mem_andThen, mem_map, mem_lit, exists_const, mem_atLeastOne]
  constructor
  · rintro ⟨_, rfl, p, _, ⟨rfl, hp⟩, rfl, rfl⟩
    exact ⟨rfl, hp⟩
  · rintro ⟨rfl, hp⟩
    exact ⟨_, rfl, p, _, ⟨rfl, hp⟩, rfl, rfl⟩

theorem mem_timeFuncPat {s rest : Text} {f : TimeFunc} : (f, rest) ∈ timeFuncPat.run s ↔ s = f.key ++ rest :=
  mem_words.trans (and_iff_right (by cases f <;> decide))

/-- The characters of a number. -/
def Numeral (n : Text) : Prop := n ≠ [] ∧ ∀ c ∈ n, isNumeral c = true

theorem mem_numeral {s n rest : Text} : (n, rest) ∈ numeral.run s ↔ s = n ++ rest ∧ Numeral n := mem_atLeastOne

/-! ## Shapes -/

/-- The shapes of a condition, but for its path. -/
inductive Shape where
  | range (timeFunc : TimeFunc) (rangeStart rangeEnd : Text) (parens : Bool)
  | single (timeFunc : TimeFunc) (mode : MatchMode) (value : Text)
  | headerExists
  | paramExists
  | headerContains (literal : Text)
  | paramContains (path literal : Text)
  | compare (path : Text) (mode : MatchMode) (value : Text)
  | equality (source : RequestSource) (raw : Text)

namespace Shape

def word : Shape → Text
  | range f _ _ parens => if parens then '(' :: f.key else f.key
  | single f _ _ => f.key
  | headerExists => RequestSource.header.key
  | paramExists => RequestSource.param.key
  | headerContains _ => "has(header".toList
  | paramContains _ _ => RequestSource.param.key
  | compare _ _ _ => RequestSource.param.key
  | equality source _ => source.key

/-- The text behind the path. -/
def rest (path : Text) : Shape → Text
  | range f a b parens =>
    " >= ".toList ++ (a ++ (" || ".toList ++ (f.key ++ ('(' :: '"' :: (path ++ ("\") < ".toList ++ (b ++
      if parens then [')'] else [])))))))
  | single _ mode v => ' ' :: (mode.op ++ ' ' :: v)
  | headerExists => " != \"\"".toList
  | paramExists => " != nil".toList
  | headerContains literal => ", ".toList ++ (literal ++ [')'])
  | paramContains path' literal => " != nil && has(param".toList ++ called [] path' (", ".toList ++ (literal ++ [')']))
  | compare path' mode v => " != nil && param".toList ++ called [] path' (' ' :: (mode.op ++ ' ' :: v))
  | equality _ raw => " == ".toList ++ raw

def text (σ : Shape) (path : Text) : Text := called σ.word path (σ.rest path)

/-- What the regular expressions ask of the parts. -/
def Valid : Shape → Prop
  | range _ a b _ => Numeral a ∧ Numeral b
  | single _ mode v => mode ∈ [MatchMode.eq, .gte, .lt] ∧ Numeral v
  | headerExists => True
  | paramExists => True
  | headerContains literal => Token literal
  | paramContains path' literal => Path path' ∧ Token literal
  | compare path' mode v => Path path' ∧ mode ∈ [MatchMode.gt, .gte, .lt, .lte] ∧ Numeral v
  | equality _ raw => raw ≠ [] ∧ ∀ c ∈ raw, isDot c = true

/-- What a text of the shape is read as. -/
def meaning (structured : Structured) (path : Text) : Shape → Except Unit (Option RequestCondition)
  | range f a b _ => .ok (some (.time f path .range [] a b))
  | single f mode v => .ok (some (.time f path mode v [] []))
  | headerExists => .ok (some (.paramHeader .header path .exist []))
  | paramExists => .ok (some (.paramHeader .param path .exist []))
  | headerContains literal => contained .header path literal
  | paramContains path' literal => if path = path' then contained .param path literal else .ok none
  | compare path' mode v => if path = path' then .ok (some (.paramHeader .param path mode v)) else .ok none
  | equality source raw => .ok ((parseExprLiteral structured raw).map fun value => .paramHeader source path .eq value)

end Shape

/-! ## The regular expressions match their shapes -/

theorem mem_timeRange {s rest : Text} {c : RequestCondition} :
    (c, rest) ∈ timeRange.run s ↔ ∃ f z a b, c = .time f z .range [] a b ∧ Path z ∧ Numeral a ∧ Numeral b ∧
      s = called f.key z (" >= ".toList ++ (a ++ (" || ".toList ++ (f.key ++ ('(' :: '"' :: (z ++ ("\") < ".toList ++
        (b ++ rest)))))))) := by
  simp only [timeRange, mem_andThen, mem_map, mem_lit, exists_const, mem_timeFuncPat, mem_quoted, mem_numeral]
  constructor
  · rintro ⟨f, _, rfl, z, _, ⟨rfl, hz⟩, _, rfl, a, _, ⟨rfl, ha⟩, _, rfl, b, ⟨rfl, hb⟩, rfl⟩
    refine ⟨f, z, a, b, rfl, hz, ha, hb, ?_⟩
    simp only [called, append_assoc, cons_append, nil_append]
  · rintro ⟨f, z, a, b, rfl, hz, ha, hb, rfl⟩
    refine ⟨f, _, rfl, z, _, ⟨rfl, hz⟩, _, rfl, a, _, ⟨rfl, ha⟩, b ++ rest, ?_, b, ⟨rfl, hb⟩, rfl⟩
    simp only [append_assoc, cons_append, nil_append]

/-- The pattern of a time compared with one number. -/
theorem mem_timeSingle {s : Text} {c : RequestCondition} :
    (c, []) ∈ timeSingle.run s ↔ ∃ f z mode v, c = .time f z mode v [] [] ∧ Path z ∧ (Shape.single f mode v).Valid ∧
      s = (Shape.single f mode v).text z := by
  simp only [timeSingle, mem_andThen, mem_map, mem_lit, exists_const, mem_timeFuncPat, mem_quoted, mem_words, mem_numeral,
    append_nil]
  constructor
  · rintro ⟨f, _, rfl, z, _, ⟨rfl, hz⟩, _, rfl, mode, _, ⟨hmode, rfl⟩, _, rfl, v, ⟨rfl, hv⟩, rfl⟩
    exact ⟨f, z, mode, _, rfl, hz, ⟨hmode, hv⟩, rfl⟩
  · rintro ⟨f, z, mode, v, rfl, hz, ⟨hmode, hv⟩, rfl⟩
    exact ⟨f, _, rfl, z, _, ⟨rfl, hz⟩, _, rfl, mode, _, ⟨hmode, rfl⟩, _, rfl, v, ⟨rfl, hv⟩, rfl⟩

/-- A regular expression for the whole of a text matches what has one of its shapes. -/
def Matches {α : Type} (r : Pattern α) (shape : α → Shape) (path : α → Text) : Prop :=
  ∀ m s, (m, []) ∈ r.run s ↔ Path (path m) ∧ (shape m).Valid ∧ s = (shape m).text (path m)

theorem mem_headerExists : Matches headerExists (fun _ => .headerExists) id := by
  intro p s
  simp only [headerExists, mem_andThen, mem_map, mem_lit, exists_const, mem_quoted, append_nil]
  constructor
  · rintro ⟨_, rfl, p, _, ⟨rfl, hp⟩, rfl, rfl⟩
    exact ⟨hp, trivial, rfl⟩
  · rintro ⟨hp, -, rfl⟩
    exact ⟨_, rfl, p, _, ⟨rfl, hp⟩, rfl, rfl⟩

theorem mem_paramExists : Matches paramExists (fun _ => .paramExists) id := by
  intro p s
  simp only [paramExists, mem_andThen, mem_map, mem_lit, exists_const, mem_quoted, append_nil]
  constructor
  · rintro ⟨_, rfl, p, _, ⟨rfl, hp⟩, rfl, rfl⟩
    exact ⟨hp, trivial, rfl⟩
  · rintro ⟨hp, -, rfl⟩
    exact ⟨_, rfl, p, _, ⟨rfl, hp⟩, rfl, rfl⟩

theorem mem_headerContains : Matches headerContains (fun m => .headerContains m.2) Prod.fst := by
  intro m s
  simp only [headerContains, mem_andThen, mem_map, mem_lit, exists_const, mem_quoted, mem_stringLiteral]
  constructor
  · rintro ⟨_, rfl, p, _, ⟨rfl, hp⟩, _, rfl, l, _, ⟨rfl, hl⟩, rfl, rfl⟩
    exact ⟨hp, hl, rfl⟩
  · rintro ⟨hp, hl, rfl⟩
    exact ⟨_, rfl, m.1, _, ⟨rfl, hp⟩, _, rfl, m.2, _, ⟨rfl, hl⟩, rfl, rfl⟩

theorem mem_paramContains : Matches paramContains (fun m => .paramContains m.2.1 m.2.2) Prod.fst := by
  intro m s
  simp only [paramContains, mem_andThen, mem_map, mem_lit, exists_const, mem_quoted, mem_stringLiteral]
  constructor
  · rintro ⟨_, rfl, p, _, ⟨rfl, hp⟩, _, rfl, q, _, ⟨rfl, hq⟩, _, rfl, l, _, ⟨rfl, hl⟩, rfl, rfl⟩
    exact ⟨hp, ⟨hq, hl⟩, rfl⟩
  · rintro ⟨hp, ⟨hq, hl⟩, rfl⟩
    exact ⟨_, rfl, m.1, _, ⟨rfl, hp⟩, _, rfl, m.2.1, _, ⟨rfl, hq⟩, _, rfl, m.2.2, _, ⟨rfl, hl⟩, rfl, rfl⟩

theorem mem_paramCompare : Matches paramCompare (fun m => .compare m.2.1 m.2.2.1 m.2.2.2) Prod.fst := by
  intro m s
  simp only [paramCompare, mem_andThen, mem_map, mem_lit, exists_const, mem_quoted, mem_words, mem_numeral, append_nil]
  constructor
  · rintro ⟨_, rfl, p, _, ⟨rfl, hp⟩, _, rfl, q, _, ⟨rfl, hq⟩, _, rfl, mode, _, ⟨hmode, rfl⟩, _, rfl, v, ⟨rfl, hv⟩, rfl⟩
    exact ⟨hp, ⟨hq, hmode, hv⟩, rfl⟩
  · rintro ⟨hp, ⟨hq, hmode, hv⟩, rfl⟩
    exact ⟨_, rfl, m.1, _, ⟨rfl, hp⟩, _, rfl, m.2.1, _, ⟨rfl, hq⟩, _, rfl, m.2.2.1, _, ⟨hmode, rfl⟩, _, rfl,
      m.2.2.2, ⟨rfl, hv⟩, rfl⟩

theorem mem_source {s rest : Text} {source : RequestSource} :
    (source, rest) ∈ (oneOf ([RequestSource.param, .header].map fun source => (lit source.key).map fun _ => source)).run
      s ↔ s = source.key ++ rest :=
  mem_words.trans (and_iff_right (by cases source <;> decide))

/-- The pattern of an equality leaves the right side as it stands. -/
theorem mem_equality : Matches equality (fun m => .equality m.1 m.2.2) fun m => m.2.1 := by
  intro m s
  simp only [equality, mem_andThen, mem_map, mem_lit, exists_const, mem_source, mem_quoted, mem_atLeastOne, append_nil]
  constructor
  · rintro ⟨source, _, rfl, p, _, ⟨rfl, hp⟩, _, rfl, raw, ⟨rfl, hraw⟩, rfl⟩
    exact ⟨hp, hraw, rfl⟩
  · rintro ⟨hp, hraw, rfl⟩
    exact ⟨m.1, _, rfl, m.2.1, _, ⟨rfl, hp⟩, _, rfl, m.2.2, ⟨rfl, hraw⟩, rfl⟩

/-! ## A text has one shape -/

theorem numeral_run {a b x y : Text} (ha : Numeral a) (hb : Numeral b) (hx : x.head?.any isNumeral = false)
    (hy : y.head?.any isNumeral = false) (h : a ++ x = b ++ y) : a = b ∧ x = y := eq_of_run ha.2 hb.2 hx hy h

theorem timeFunc_inj {f g : TimeFunc} (h : f.key = g.key) : f = g := by
  cases f <;> cases g <;> first | rfl | (simp [TimeFunc.key] at h)

/-- What a word is. -/
inductive WordKind where
  | time (f : TimeFunc)
  | paren (f : TimeFunc)
  | request (source : RequestSource)
  | hasHeader

def WordKind.text : WordKind → Text
  | time f => f.key
  | paren f => '(' :: f.key
  | request source => source.key
  | hasHeader => ['h', 'a', 's', '(', 'h', 'e', 'a', 'd', 'e', 'r']

/-- Words of different kinds are different. -/
theorem WordKind.text_inj {k l : WordKind} (h : k.text = l.text) : k = l := by
  have hparen : ∀ (f : TimeFunc) (w : Text), w.head? ≠ some '(' → w ≠ '(' :: f.key := by
    rintro f w hw rfl
    exact hw rfl
  have htime : ∀ (f : TimeFunc) (w : Text), w ∈ [RequestSource.param.key, RequestSource.header.key,
      WordKind.hasHeader.text] → f.key ≠ w := by
    intro f w hw
    simp only [mem_cons, not_mem_nil, or_false] at hw
    rcases hw with rfl | rfl | rfl <;> cases f <;> decide
  cases k with
  | time f =>
    cases l with
    | time => rw [timeFunc_inj h]
    | paren g => exact absurd h (hparen g _ (by cases f <;> decide))
    | request source => exact absurd h (htime f _ (by cases source <;> simp [WordKind.text]))
    | hasHeader => exact absurd h (htime f _ (by simp))
  | paren f =>
    cases l with
    | time g => exact absurd h.symm (hparen f _ (by cases g <;> decide))
    | paren => rw [timeFunc_inj (cons.inj h).2]
    | request source => exact absurd h.symm (hparen f _ (by cases source <;> decide))
    | hasHeader => exact absurd h.symm (hparen f _ (by decide))
  | request source =>
    cases l with
    | time g => exact absurd h.symm (htime g _ (by cases source <;> simp [WordKind.text]))
    | paren g => exact absurd h (hparen g _ (by cases source <;> decide))
    | request source' => cases source <;> cases source' <;> first | rfl | exact absurd h (by decide)
    | hasHeader => cases source <;> exact absurd h (by decide)
  | hasHeader =>
    cases l with
    | time g => exact absurd h.symm (htime g _ (by simp))
    | paren g => exact absurd h (hparen g _ (by decide))
    | request source => cases source <;> exact absurd h (by decide)
    | hasHeader => rfl

theorem WordKind.text_quote (k : WordKind) : '"' ∉ k.text := by
  cases k with
  | time f => cases f <;> decide
  | paren f => cases f <;> decide
  | request source => cases source <;> decide
  | hasHeader => decide

def Shape.kind : Shape → WordKind
  | range f _ _ parens => if parens then .paren f else .time f
  | single f _ _ => .time f
  | headerExists => .request .header
  | paramExists => .request .param
  | headerContains _ => .hasHeader
  | paramContains _ _ => .request .param
  | compare _ _ _ => .request .param
  | equality source _ => .request source

theorem Shape.word_eq (σ : Shape) : σ.word = σ.kind.text := by
  cases σ with
  | range _ _ _ parens => cases parens <;> rfl
  | _ => rfl

theorem op_unique {m n : MatchMode} {x y : Text}
    (h : m.op ++ ' ' :: x = n.op ++ ' ' :: y) : m.op = n.op ∧ x = y := by
  have hno : ∀ m : MatchMode, ' ' ∉ m.op := by intro m; cases m <;> decide
  exact eq_of_first (hno m) (hno n) h

theorem single_modes : ∀ m ∈ [MatchMode.eq, .gte, .lt], ∀ n ∈ [MatchMode.eq, .gte, .lt], m.op = n.op → m = n := by
  decide

theorem compare_modes : ∀ m ∈ [MatchMode.gt, .gte, .lt, .lte], ∀ n ∈ [MatchMode.gt, .gte, .lt, .lte],
    m.op = n.op → m = n := by
  decide

/-- A comparison with one number is no range. -/
theorem single_not_range {f g : TimeFunc} {mode : MatchMode} {v a b p : Text} {parens : Bool}
    (hσ : (Shape.single f mode v).Valid) :
    (Shape.single f mode v).rest p ≠ (Shape.range g a b parens).rest p := by
  intro h
  have hrest : mode.op ++ ' ' :: v = MatchMode.gte.op ++ ' ' :: (a ++ (" || ".toList ++ (g.key ++ ('(' :: '"' ::
      (p ++ ("\") < ".toList ++ (b ++ if parens then [')'] else []))))))) := (cons.inj h).2
  obtain ⟨-, hv⟩ := op_unique hrest
  have hmem : ' ' ∈ v := by
    rw [hv]
    exact mem_append_right _ mem_cons_self
  exact absurd (hσ.2.2 _ hmem) (by decide)

/-- The bounds of a range are found again: no digit follows them. -/
theorem range_unique {f g : TimeFunc} {a b a' b' p : Text} {parens : Bool} (hσ : (Shape.range f a b parens).Valid)
    (hτ : (Shape.range g a' b' parens).Valid)
    (h : (Shape.range f a b parens).rest p = (Shape.range g a' b' parens).rest p) : a = a' ∧ b = b' := by
  have hfirst := cancel_front " >= ".toList h
  obtain ⟨rfl, hrest⟩ := numeral_run hσ.1 hτ.1 rfl rfl hfirst
  have hkeys := cancel_front " || ".toList hrest
  have hparens : ∀ f : TimeFunc, '(' ∉ f.key := by intro f; cases f <;> decide
  obtain ⟨-, htail⟩ := eq_of_first (hparens f) (hparens g) hkeys
  have hpath := append_cancel_left (cons.inj htail).2
  have hlast := cancel_front "\") < ".toList hpath
  exact ⟨rfl, append_cancel_right hlast⟩

/-- A text has at most one shape. -/
theorem shape_unique {σ τ : Shape} {p q : Text} (hσ : σ.Valid) (hτ : τ.Valid) (hp : Path p) (hq : Path q)
    (h : σ.text p = τ.text q) : σ = τ ∧ p = q := by
  have hquote : ∀ σ : Shape, '"' ∉ σ.word := by
    intro σ
    rw [σ.word_eq]
    exact σ.kind.text_quote
  obtain ⟨hword, rfl, hrest⟩ := called_unique (hquote σ) (hquote τ) hp.2 hq.2 h
  rw [σ.word_eq, τ.word_eq] at hword
  have hkind := WordKind.text_inj hword
  refine ⟨?_, rfl⟩
  cases σ with
  | range f _ _ parens =>
    cases τ with
    | range g _ _ parens' =>
      have hsame : f = g ∧ parens = parens' := by
        cases parens <;> cases parens'
        · exact ⟨WordKind.time.inj hkind, rfl⟩
        · cases hkind
        · cases hkind
        · exact ⟨WordKind.paren.inj hkind, rfl⟩
      obtain ⟨rfl, rfl⟩ := hsame
      obtain ⟨rfl, rfl⟩ := range_unique hσ hτ hrest
      rfl
    | single => exact absurd hrest.symm (single_not_range hτ)
    | _ => cases parens <;> cases hkind
  | single =>
    cases τ with
    | range => exact absurd hrest (single_not_range hσ)
    | single =>
      obtain ⟨hop, rfl⟩ := op_unique (List.cons.inj hrest).2
      rw [WordKind.time.inj hkind, single_modes _ hσ.1 _ hτ.1 hop]
    | _ => cases hkind
  | headerExists =>
    cases τ with
    | range _ _ _ parens' => cases parens' <;> cases hkind
    | headerExists => rfl
    | equality => cases hrest
    | _ => cases hkind
  | paramExists =>
    cases τ with
    | range _ _ _ parens' => cases parens' <;> cases hkind
    | paramExists => rfl
    | paramContains | compare | equality => cases hrest
    | _ => cases hkind
  | headerContains =>
    cases τ with
    | range _ _ _ parens' => cases parens' <;> cases hkind
    | headerContains =>
      have hliteral := cancel_front ", ".toList hrest
      rw [List.append_cancel_right hliteral]
    | _ => cases hkind
  | paramContains =>
    cases τ with
    | range _ _ _ parens' => cases parens' <;> cases hkind
    | paramExists | compare | equality => cases hrest
    | paramContains =>
      have hcall := cancel_front " != nil && has(param".toList hrest
      obtain ⟨-, rfl, htail⟩ := called_unique List.not_mem_nil List.not_mem_nil hσ.1.2 hτ.1.2 hcall
      have hliteral := cancel_front ", ".toList htail
      rw [List.append_cancel_right hliteral]
    | _ => cases hkind
  | compare =>
    cases τ with
    | range _ _ _ parens' => cases parens' <;> cases hkind
    | paramExists | paramContains | equality => cases hrest
    | compare =>
      have hcall := cancel_front " != nil && param".toList hrest
      obtain ⟨-, rfl, htail⟩ := called_unique List.not_mem_nil List.not_mem_nil hσ.1.2 hτ.1.2 hcall
      obtain ⟨hop, rfl⟩ := op_unique (List.cons.inj htail).2
      rw [compare_modes _ hσ.2.1 _ hτ.2.1 hop]
    | _ => cases hkind
  | equality =>
    cases τ with
    | range _ _ _ parens' => cases parens' <;> cases hkind
    | headerExists | paramExists | paramContains | compare => cases hrest
    | equality =>
      have hraw := cancel_front " == ".toList hrest
      rw [WordKind.request.inj hkind, hraw]
    | _ => cases hkind

/-! ## Reading by shapes -/

namespace Matches

variable {α : Type} {r : Pattern α} {shape : α → Shape} {path : α → Text} {s : Text} {m : α}

theorem some (h : Matches r shape path) (hm : r.execWhole s = some m) :
    Path (path m) ∧ (shape m).Valid ∧ s = (shape m).text (path m) := (h m s).1 (execWhole_some hm)

theorem ne_none (h : Matches r shape path) (m : α) (hm : Path (path m) ∧ (shape m).Valid ∧ s = (shape m).text (path m)) :
    r.execWhole s ≠ none := execWhole_ne_none ((h m s).2 hm)

/-- A text of another shape is not matched. -/
theorem none (h : Matches r shape path) {σ : Shape} {p : Text} (hσ : σ.Valid) (hp : Path p) (hs : s = σ.text p)
    (hne : ∀ m, shape m ≠ σ) : r.execWhole s = none := by
  cases hm : r.execWhole s with
  | none => rfl
  | some m =>
    obtain ⟨hp', hσ', hs'⟩ := h.some hm
    exact absurd (shape_unique hσ' hσ hp' hp (hs'.symm.trans hs)).1 (hne m)

end Matches

theorem timeRange_shape {s : Text} {c : RequestCondition} (h : (c, []) ∈ timeRange.run s) :
    ∃ f z a b, c = .time f z .range [] a b ∧ Path z ∧ (Shape.range f a b false).Valid ∧
      s = (Shape.range f a b false).text z := by
  obtain ⟨f, z, a, b, rfl, hpath, ha, hb, rfl⟩ := mem_timeRange.1 h
  exact ⟨f, z, a, b, rfl, hpath, ⟨ha, hb⟩, rfl⟩

def parenRange : Pattern RequestCondition :=
  (lit ['(']).andThen fun _ => timeRange.andThen fun c => (lit [')']).map fun _ => c

theorem mem_parenRange {s : Text} {c : RequestCondition} :
    (c, []) ∈ parenRange.run s ↔ ∃ f z a b, c = .time f z .range [] a b ∧ Path z ∧ (Shape.range f a b true).Valid ∧
      s = (Shape.range f a b true).text z := by
  simp only [parenRange, mem_andThen, mem_map, mem_lit, exists_const, mem_timeRange]
  constructor
  · rintro ⟨_, rfl, _, _, ⟨f, z, a, b, rfl, hz, ha, hb, rfl⟩, rfl, rfl⟩
    exact ⟨f, z, a, b, rfl, hz, ⟨ha, hb⟩, rfl⟩
  · rintro ⟨f, z, a, b, rfl, hz, ⟨ha, hb⟩, rfl⟩
    exact ⟨_, rfl, _, [')'], ⟨f, z, a, b, rfl, hz, ha, hb, rfl⟩, rfl, rfl⟩

/-- The shapes of conditions on the time. -/
def Shape.isTime : Shape → Bool
  | range _ _ _ _ => true
  | single _ _ _ => true
  | _ => false

section

variable (structured : Structured)

omit structured in
theorem tryParseTimeCondition_eq (s : Text) : tryParseTimeCondition s =
    (timeRange.execWhole s).or ((parenRange.execWhole s).or (timeSingle.execWhole s)) := by
  unfold tryParseTimeCondition
  cases timeRange.execWhole s with
  | some => rfl
  | none =>
    show _ = (parenRange.execWhole s).or _
    cases hparen : parenRange.execWhole s with
    | some | none =>
      unfold parenRange at hparen
      rw [hparen]
      rfl

/-- What the three patterns for times read. -/
theorem tryParseTimeCondition_cases (s : Text) :
    (∃ σ p c, Shape.Valid σ ∧ Path p ∧ s = σ.text p ∧ σ.meaning structured p = .ok (some c) ∧
        tryParseTimeCondition s = some c) ∨
      (tryParseTimeCondition s = none ∧ ∀ σ p, Shape.Valid σ → Path p → s = σ.text p → σ.isTime = false) := by
  have hequal := tryParseTimeCondition_eq s
  cases h1 : timeRange.execWhole s with
  | some =>
    rw [h1] at hequal
    obtain ⟨f, z, a, b, rfl, hpath, hvalid, hs⟩ := timeRange_shape (execWhole_some h1)
    exact Or.inl ⟨_, z, _, hvalid, hpath, hs, rfl, hequal⟩
  | none =>
    rw [h1] at hequal
    cases h2 : parenRange.execWhole s with
    | some =>
      rw [h2] at hequal
      obtain ⟨f, z, a, b, rfl, hpath, hvalid, hs⟩ := mem_parenRange.1 (execWhole_some h2)
      exact Or.inl ⟨_, z, _, hvalid, hpath, hs, rfl, hequal⟩
    | none =>
      rw [h2] at hequal
      cases h3 : timeSingle.execWhole s with
      | some =>
        rw [h3] at hequal
        obtain ⟨f, z, mode, v, rfl, hpath, hvalid, hs⟩ := mem_timeSingle.1 (execWhole_some h3)
        exact Or.inl ⟨_, z, _, hvalid, hpath, hs, rfl, hequal⟩
      | none =>
        rw [h3] at hequal
        refine Or.inr ⟨hequal, fun σ p hσ hp hs => ?_⟩
        cases σ with
        | range f a b parens =>
          cases parens with
          | false =>
            exact absurd h1 (execWhole_ne_none (mem_timeRange.2 ⟨f, p, a, b, rfl, hp, hσ.1, hσ.2, hs⟩))
          | true => exact absurd h2 (execWhole_ne_none (mem_parenRange.2 ⟨f, p, a, b, rfl, hp, hσ, hs⟩))
        | single f mode v =>
          exact absurd h3 (execWhole_ne_none (mem_timeSingle.2 ⟨f, p, mode, v, rfl, hp, hσ, hs⟩))
        | _ => rfl

theorem tryParseParamCondition_eq (s : Text) : tryParseParamCondition structured s =
    ((paramContains.execWhole s).filter fun m => m.1 = m.2.1).elim
      (((paramCompare.execWhole s).filter fun m => m.1 = m.2.1).elim (.ok (tryParseEquality structured s))
        fun m => .ok (some (.paramHeader .param m.1 m.2.2.1 m.2.2.2)))
      fun m => contained .param m.1 m.2.2 := by
  unfold tryParseParamCondition
  cases (paramContains.execWhole s).filter fun m => m.1 = m.2.1 with
  | some => rfl
  | none =>
    cases (paramCompare.execWhole s).filter fun m => m.1 = m.2.1 with
    | some => rfl
    | none => rfl

/-- What the last three regular expressions read. -/
theorem tryParseParamCondition_cases (s : Text) :
    (∃ σ p, Shape.Valid σ ∧ Path p ∧ s = σ.text p ∧ tryParseParamCondition structured s = σ.meaning structured p) ∨
      (tryParseParamCondition structured s = .ok none ∧ ∀ σ p, Shape.Valid σ → Path p → s = σ.text p →
        σ.kind = .request .param → σ ≠ .paramExists → σ.meaning structured p = .ok none) := by
  have hequal := tryParseParamCondition_eq structured s
  cases h1 : paramContains.execWhole s with
  | some m =>
    obtain ⟨hpath, hvalid, hs⟩ := mem_paramContains.some h1
    refine Or.inl ⟨_, m.1, hvalid, hpath, hs, ?_⟩
    rw [hequal, h1]
    by_cases hm : m.1 = m.2.1
    · rw [Option.filter_some, if_pos (decide_eq_true hm)]
      exact (if_pos hm).symm
    · -- the two paths differ, and no other regular expression matches
      rw [Option.filter_some, if_neg (by simpa using hm), mem_paramCompare.none hvalid hpath hs fun _ => nofun,
        tryParseEquality, mem_equality.none hvalid hpath hs fun _ => nofun]
      exact (if_neg hm).symm
  | none =>
    rw [h1] at hequal
    cases h2 : paramCompare.execWhole s with
    | some m =>
      obtain ⟨hpath, hvalid, hs⟩ := mem_paramCompare.some h2
      refine Or.inl ⟨_, m.1, hvalid, hpath, hs, ?_⟩
      rw [hequal, h2]
      by_cases hm : m.1 = m.2.1
      · rw [Option.filter_some, if_pos (decide_eq_true hm)]
        exact (if_pos hm).symm
      · rw [Option.filter_some, if_neg (by simpa using hm), tryParseEquality,
          mem_equality.none hvalid hpath hs fun _ => nofun]
        exact (if_neg hm).symm
    | none =>
      rw [h2] at hequal
      have hequal : tryParseParamCondition structured s = .ok (tryParseEquality structured s) := hequal
      rw [tryParseEquality] at hequal
      cases h3 : equality.execWhole s with
      | some m =>
        obtain ⟨hpath, hvalid, hs⟩ := mem_equality.some h3
        refine Or.inl ⟨_, m.2.1, hvalid, hpath, hs, ?_⟩
        rw [hequal, h3]
        rfl
      | none =>
        refine Or.inr ⟨by rw [hequal, h3]; rfl, fun σ p hσ hp hs hkind hnot => ?_⟩
        cases σ with
        | paramExists => exact absurd rfl hnot
        | paramContains path literal => exact absurd h1 (mem_paramContains.ne_none (p, path, literal) ⟨hp, hσ, hs⟩)
        | compare path mode v => exact absurd h2 (mem_paramCompare.ne_none (p, path, mode, v) ⟨hp, hσ, hs⟩)
        | equality source raw => exact absurd h3 (mem_equality.ne_none (source, p, raw) ⟨hp, hσ, hs⟩)
        | range _ _ _ parens => cases parens <;> cases hkind
        | _ => cases hkind

/-- A text is read as what its shape means, and a text without a shape is not read. -/
theorem tryParse_cases (s : Text) :
    (∃ σ p, Shape.Valid σ ∧ Path p ∧ s = σ.text p ∧ tryParseRequestCondition structured s = σ.meaning structured p) ∨
      tryParseRequestCondition structured s = .ok none ∧
        ∀ σ p, Shape.Valid σ → Path p → s = σ.text p → σ.meaning structured p = .ok none := by
  unfold tryParseRequestCondition
  rcases tryParseTimeCondition_cases structured s with ⟨σ, p, c, hσ, hp, hs, hmeaning, h⟩ | ⟨h, htime⟩
  · rw [h]
    exact Or.inl ⟨σ, p, hσ, hp, hs, hmeaning.symm⟩
  · rw [h]
    cases h1 : headerExists.execWhole s with
    | some p =>
      obtain ⟨hp, -, hs⟩ := mem_headerExists.some h1
      exact Or.inl ⟨.headerExists, p, trivial, hp, hs, rfl⟩
    | none =>
      cases h2 : paramExists.execWhole s with
      | some p =>
        obtain ⟨hp, -, hs⟩ := mem_paramExists.some h2
        exact Or.inl ⟨.paramExists, p, trivial, hp, hs, rfl⟩
      | none =>
        cases h3 : headerContains.execWhole s with
        | some m =>
          obtain ⟨hp, htoken, hs⟩ := mem_headerContains.some h3
          exact Or.inl ⟨.headerContains m.2, m.1, htoken, hp, hs, rfl⟩
        | none =>
          rcases tryParseParamCondition_cases structured s with hsome | ⟨hnone, hparam⟩
          · exact Or.inl hsome
          · by_cases hequality : ∃ raw p, (Shape.equality .header raw).Valid ∧ Path p ∧
                s = (Shape.equality .header raw).text p
            · obtain ⟨raw, p, hσ, hp, hs⟩ := hequality
              refine Or.inl ⟨_, p, hσ, hp, hs, ?_⟩
              show tryParseParamCondition structured s = _
              obtain ⟨m, hm⟩ := Option.ne_none_iff_exists'.1 (mem_equality.ne_none (.header, p, raw) ⟨hp, hσ, hs⟩)
              obtain ⟨hp', hσ', hs'⟩ := mem_equality.some hm
              obtain ⟨heq, hpath⟩ := shape_unique hσ' hσ hp' hp (hs'.symm.trans hs)
              obtain ⟨source, p', raw'⟩ := m
              cases heq
              cases hpath
              rw [tryParseParamCondition, mem_paramContains.none hσ hp hs fun _ => nofun,
                mem_paramCompare.none hσ hp hs fun _ => nofun]
              show Except.ok (tryParseEquality structured s) = _
              rw [tryParseEquality, hm]
              rfl
            · refine Or.inr ⟨hnone, fun σ p hσ hp hs => ?_⟩
              cases σ with
              | range | single => exact absurd (htime _ p hσ hp hs) (by simp [Shape.isTime])
              | headerExists => exact absurd h1 (mem_headerExists.ne_none p ⟨hp, trivial, hs⟩)
              | paramExists => exact absurd h2 (mem_paramExists.ne_none p ⟨hp, trivial, hs⟩)
              | headerContains literal => exact absurd h3 (mem_headerContains.ne_none (p, literal) ⟨hp, hσ, hs⟩)
              | paramContains | compare => exact hparam _ p hσ hp hs rfl (by simp)
              | equality source raw =>
                cases source with
                | param => exact hparam _ p hσ hp hs rfl (by simp)
                | header => exact absurd ⟨raw, p, hσ, hp, hs⟩ hequality

/-- A text of a shape is read as the shape means. -/
theorem tryParse_shape {σ : Shape} {p : Text} (hσ : σ.Valid) (hp : Path p) :
    tryParseRequestCondition structured (σ.text p) = σ.meaning structured p := by
  rcases tryParse_cases structured (σ.text p) with ⟨τ, q, hτ, hq, hs, h⟩ | ⟨h, hall⟩
  · obtain ⟨rfl, rfl⟩ := shape_unique hσ hτ hp hq hs
    exact h
  · rw [h, hall σ p hσ hp rfl]

/-- Whatever is read has a shape. -/
theorem tryParse_some {s : Text} {c : RequestCondition} (h : tryParseRequestCondition structured s = .ok (some c)) :
    ∃ σ p, Shape.Valid σ ∧ Path p ∧ s = σ.text p ∧ σ.meaning structured p = .ok (some c) := by
  rcases tryParse_cases structured s with ⟨σ, p, hσ, hp, hs, heq⟩ | ⟨hnone, -⟩
  · exact ⟨σ, p, hσ, hp, hs, heq.symm.trans h⟩
  · rw [hnone] at h
    cases h

end

end NovaMaas.Pricing
