/-
  Texts of tiers: what the two readers of a billing expression have in common.

  The text of a tier is a sum of prices (`TierBody`): a name, a star and a number each, with white space anywhere between
  them.  The editor's regular expression goes back from what it took as a number until it finds the plus sign, so it
  reads the number WITHOUT a plus sign that stands directly behind it (`Item.number`).  A scan for one price after the
  other takes the plus sign as a part of the number (`Item.run`).

  A text with tiers (`Tiers`) has no quotation marks but those of the labels.  By counting them it is seen that the
  text in which the editor finds its tiers has no others, and so that the display finds the same ones.
-/
import NovaMaas.Lib.Places
import NovaMaas.Pricing.TierExpr

open List

namespace NovaMaas.Pricing

open Pattern Places

/-! ## Numbers -/

theorem digits_last {s rest t : Text} (h : (t, rest) ∈ digits.run s) : s = t ++ rest ∧ ∃ u c, t = u ++ [c] ∧ c ≠ '+' := by
  obtain ⟨heq, hne, hall⟩ := mem_atLeastOne.1 h
  refine ⟨heq, t.dropLast, t.getLast hne, (dropLast_append_getLast hne).symm, ?_⟩
  intro hplus
  have hdigit := hall _ (getLast_mem hne)
  rw [hplus] at hdigit
  exact absurd hdigit (by decide)

/-- The digits of a number are not followed by a plus sign in its text. -/
def EndsPlain (s rest : Text) : Prop := ∃ u c, s = u ++ c :: rest ∧ c ≠ '+'

variable {s rest : Text}

theorem EndsPlain.prepend (h : EndsPlain s rest) (t : Text) : EndsPlain (t ++ s) rest := by
  obtain ⟨u, c, rfl, hc⟩ := h
  exact ⟨t ++ u, c, (append_assoc t u _).symm, hc⟩

theorem digits_plain {s rest t : Text} (h : (t, rest) ∈ digits.run s) : EndsPlain s rest := by
  obtain ⟨rfl, u, c, rfl, hc⟩ := digits_last h
  exact ⟨u, c, by rw [append_assoc]; rfl, hc⟩

theorem mantissa_plain {m : Text × Text} (h : (m, rest) ∈ mantissa.run s) : EndsPlain s rest := by
  rcases mem_or.1 h with h | h
  · obtain ⟨whole, mid, hwhole, h⟩ := mem_andThen.1 h
    obtain ⟨fraction, hfraction, -⟩ := mem_map.1 h
    rcases mem_optional.1 hfraction with ⟨ds, hds, -⟩ | ⟨-, rfl⟩
    · obtain ⟨u, mid', hpoint, hmany⟩ := mem_andThen.1 hds
      rw [(digits_last hwhole).1, mem_lit.1 hpoint]
      obtain ⟨rfl, hall⟩ := mem_many.1 hmany
      refine EndsPlain.prepend ?_ whole
      rcases eq_nil_or_concat ds with rfl | ⟨ds, c, rfl⟩
      · exact ⟨[], '.', rfl, by decide⟩
      · rw [concat_eq_append] at hall ⊢
        refine ⟨'.' :: ds, c, ?_, fun hplus => ?_⟩
        · rw [append_assoc]
          rfl
        · have hdigit := hall c (mem_append_right _ mem_cons_self)
          rw [hplus] at hdigit
          exact absurd hdigit (by decide)
    · exact digits_plain hwhole
  · obtain ⟨u, mid, hpoint, h⟩ := mem_andThen.1 h
    obtain ⟨fraction, hfraction, -⟩ := mem_map.1 h
    rw [mem_lit.1 hpoint]
    exact (digits_plain hfraction).prepend _

theorem sign_suffix {b : Bool} (h : (b, rest) ∈ sign.run s) : ∃ t, s = t ++ rest := by
  obtain ⟨t, ht⟩ := sign.suffix s _ h
  exact ⟨t, ht.symm⟩

theorem exponentPart_plain {e : Bool × Text} (h : (e, rest) ∈ exponentPart.run s) : EndsPlain s rest := by
  obtain ⟨c, mid, hc, h⟩ := mem_andThen.1 h
  obtain ⟨negative, mid', hsign, h⟩ := mem_andThen.1 h
  obtain ⟨ds, hds, -⟩ := mem_map.1 h
  obtain ⟨rfl, -⟩ := mem_one.1 hc
  obtain ⟨t, rfl⟩ := sign_suffix hsign
  exact ((digits_plain hds).prepend t).prepend [c]

theorem decimalLiteral_plain {d : Decimal} (h : (d, rest) ∈ decimalLiteral.run s) :
    EndsPlain s rest := by
  obtain ⟨negative, mid, hsign, h⟩ := mem_andThen.1 h
  obtain ⟨m, mid', hm, h⟩ := mem_andThen.1 h
  obtain ⟨e, he, -⟩ := mem_map.1 h
  obtain ⟨t, rfl⟩ := sign_suffix hsign
  refine EndsPlain.prepend ?_ t
  rcases mem_optional.1 he with ⟨e', he', -⟩ | ⟨-, rfl⟩
  · obtain ⟨u, hu⟩ := mantissa.suffix mid _ hm
    rw [← hu]
    exact (exponentPart_plain he').prepend u
  · exact mantissa_plain hm

/-- A text that ends with a plus sign is no number. -/
theorem number_plus {F : Type} (N : JsNumbers F) (t : Text) : N.number (t ++ ['+']) = none := by
  unfold JsNumbers.number
  cases h : decimalLiteral.execWhole (t ++ ['+']) with
  | none => rfl
  | some =>
    obtain ⟨u, c, heq, hc⟩ := decimalLiteral_plain (execWhole_some h)
    have hlast := congrArg getLast? heq
    rw [getLast?_concat, getLast?_concat] at hlast
    exact absurd (Option.some.inj hlast).symm hc

/-! ## Names -/

theorem key_word (v : PricedVar) : ∀ c ∈ v.key, isWord c = true := by
  have hall : v.key.all isWord = true := by cases v <;> rfl
  exact all_eq_true.1 hall

theorem key_ne_nil (v : PricedVar) : v.key ≠ [] := by
  cases v <;> decide

theorem key_inj {v w : PricedVar} (h : v.key = w.key) : v = w := by
  cases v <;> cases w <;> first | rfl | (simp [PricedVar.key] at h)

/-! ## Kinds of characters -/

variable {c : Char}

theorem blank_code (h : isBlank c = true) : c.toNat < 33 ∨ 122 < c.toNat := by
  unfold isBlank at h
  simp only [Bool.or_eq_true, Bool.and_eq_true, decide_eq_true_eq, contains_eq_mem, mem_cons,
    not_mem_nil, or_false] at h
  omega

theorem digit_code (h : c.isDigit = true) : 48 ≤ c.toNat ∧ c.toNat ≤ 57 := by
  unfold Char.isDigit at h
  simp only [Bool.and_eq_true, decide_eq_true_eq, ge_iff_le, UInt32.le_iff_toNat_le] at h
  exact h

theorem numeral_code (h : isNumeral c = true) : 43 ≤ c.toNat ∧ c.toNat ≤ 101 := by
  rcases Bool.or_eq_true_iff.1 h with h | h
  · have hcode := digit_code h
    omega
  · rw [contains_eq_mem, decide_eq_true_eq] at h
    simp only [mem_cons, not_mem_nil, or_false] at h
    rcases h with rfl | rfl | rfl | rfl | rfl <;> decide

theorem word_code (h : isWord c = true) : 48 ≤ c.toNat ∧ c.toNat ≤ 122 := by
  rcases Bool.or_eq_true_iff.1 h with h | h
  · unfold Char.isAlphanum Char.isAlpha Char.isUpper Char.isLower Char.isDigit at h
    simp only [Bool.or_eq_true, Bool.and_eq_true, decide_eq_true_eq, ge_iff_le, UInt32.le_iff_toNat_le] at h
    have hcode : c.val.toNat = c.toNat := rfl
    rw [hcode] at h
    have hA : 'A'.val.toNat = 65 := rfl
    have hZ : 'Z'.val.toNat = 90 := rfl
    have ha : 'a'.val.toNat = 97 := rfl
    have hz : 'z'.val.toNat = 122 := rfl
    have h0 : '0'.val.toNat = 48 := rfl
    have h9 : '9'.val.toNat = 57 := rfl
    omega
  · rw [beq_iff_eq] at h
    rw [h]
    decide

theorem not_numeral_of_blank (h : isBlank c = true) : isNumeral c = false := by
  rw [← Bool.not_eq_true]
  intro hn
  have h1 := blank_code h
  have h2 := numeral_code hn
  omega

theorem not_word_of_blank (h : isBlank c = true) : isWord c = false := by
  rw [← Bool.not_eq_true]
  intro hn
  have h1 := blank_code h
  have h2 := word_code hn
  omega

/-! ## Texts of tiers -/

/-- White space. -/
def White (t : Text) : Prop := ∀ c ∈ t, isBlank c = true

/-- A price in a text: the name, the number, and whether a plus sign stands directly behind it. -/
structure Item where
  name   : PricedVar
  number : Text
  glued  : Bool

namespace Item

/-- The number with the plus sign behind it. -/
def run (i : Item) : Text := if i.glued then i.number ++ ['+'] else i.number

def pair (i : Item) : PricedVar × Text := (i.name, i.number)

end Item

/-- The text `name * number`, and what stands behind it. -/
def Priced (i : Item) (t behind : Text) : Prop :=
  ∃ g g', t = i.name.key ++ (g ++ '*' :: (g' ++ (i.number ++ behind))) ∧ White g ∧ White g' ∧
    (i.number ≠ [] ∧ ∀ c ∈ i.number, isNumeral c = true) ∧ i.glued = (behind.head? == some '+')

/-- Prices that are added. -/
def Terms : List Item → Text → Prop
  | [], t => t = []
  | i :: is, t =>
    ∃ w w' u behind, t = w ++ '+' :: (w' ++ u) ∧ White w ∧ White w' ∧ Priced i u behind ∧ Terms is behind

/-- A sum of prices. -/
def TierBody : List Item → Text → Prop
  | [], _ => False
  | i :: is, t => ∃ behind, Priced i t behind ∧ Terms is behind

/-! ## The editor's regular expression -/

theorem mem_price {name s n rest : Text} :
    (n, rest) ∈ (price name).run s ↔ ∃ g g', s = name ++ (g ++ '*' :: (g' ++ (n ++ rest))) ∧ White g ∧ White g' ∧
      n ≠ [] ∧ ∀ c ∈ n, isNumeral c = true := by
  simp only [price, blanks, mem_andThen, mem_lit, exists_const, mem_many, mem_atLeastOne]
  constructor
  · rintro ⟨_, rfl, g, _, ⟨rfl, hg⟩, _, rfl, g', _, ⟨rfl, hg'⟩, rfl, hn⟩
    exact ⟨g, g', rfl, hg, hg', hn⟩
  · rintro ⟨g, g', rfl, hg, hg', hn⟩
    exact ⟨_, rfl, g, _, ⟨rfl, hg⟩, _, rfl, g', _, ⟨rfl, hg'⟩, rfl, hn⟩

/-- The plus sign between two prices, with a price behind it. -/
theorem mem_plus {α : Type} {r : Pattern α} {s rest : Text} {a : α} :
    (a, rest) ∈ (blanks.andThen fun _ => (lit ['+']).andThen fun _ => blanks.andThen fun _ => r).run s ↔
      ∃ w w' u, s = w ++ '+' :: (w' ++ u) ∧ White w ∧ White w' ∧ (a, rest) ∈ r.run u := by
  simp only [blanks, mem_andThen, mem_lit, exists_const, mem_many]
  constructor
  · rintro ⟨w, _, ⟨rfl, hw⟩, _, rfl, w', u, ⟨rfl, hw'⟩, h⟩
    exact ⟨w, w', u, rfl, hw, hw', h⟩
  · rintro ⟨w, w', u, rfl, hw, hw', h⟩
    exact ⟨w, _, ⟨rfl, hw⟩, _, rfl, w', u, ⟨rfl, hw'⟩, h⟩

/-- The cache variables that stand in a match, with their numbers. -/
def present (vs : List PricedVar) (cache : List (Option Text)) : List (PricedVar × Text) :=
  (vs.zip cache).filterMap fun p => p.2.map fun n => (p.1, n)

def cachePat (v : PricedVar) : Pattern (Option Text) :=
  optional (blanks.andThen fun _ => (lit ['+']).andThen fun _ => blanks.andThen fun _ => price v.key)

theorem cache_terms {vs : List PricedVar} {s rest : Text} {cache : List (Option Text)}
    (h : (cache, rest) ∈ (each (vs.map cachePat)).run s) :
    ∃ is t, s = t ++ rest ∧ Terms is t ∧ is.map Item.pair = present vs cache ∧ cache.length = vs.length := by
  induction vs generalizing s cache with
  | nil =>
    obtain ⟨rfl, rfl⟩ := mem_give.1 h
    exact ⟨[], [], rfl, rfl, rfl, rfl⟩
  | cons v vs ih =>
    obtain ⟨o, mid, ho, h⟩ := mem_andThen.1 h
    obtain ⟨cache', hcache, rfl⟩ := mem_map.1 h
    obtain ⟨is, t, rfl, hterms, hpairs, hlen⟩ := ih hcache
    have hlen' : (o :: cache').length = (v :: vs).length := by rw [length_cons, length_cons, hlen]
    rcases mem_optional.1 ho with ⟨n, hn, rfl⟩ | ⟨rfl, heq⟩
    · obtain ⟨w, w', u, rfl, hw, hw', hprice⟩ := mem_plus.1 hn
      obtain ⟨g, g', rfl, hg, hg', hne, hnum⟩ := mem_price.1 hprice
      refine ⟨⟨v, n, t.head? == some '+'⟩ :: is, w ++ '+' :: (w' ++ (v.key ++ (g ++ '*' :: (g' ++ (n ++ t))))), ?_, ?_,
        ?_, hlen'⟩
      · simp only [append_assoc, cons_append]
      · exact ⟨w, w', _, t, rfl, hw, hw', ⟨g, g', rfl, hg, hg', ⟨hne, hnum⟩, rfl⟩, hterms⟩
      · rw [map_cons, hpairs]
        rfl
    · exact ⟨is, t, heq.symm, hterms, hpairs, hlen'⟩

/-- What the editor reads as the prices of a tier is a sum of prices. -/
theorem bodyPat_body {s rest input output : Text} {cache : List (Option Text)}
    (h : ((input, output, cache), rest) ∈ bodyPat.run s) :
    ∃ is t, s = t ++ rest ∧ TierBody is t ∧
      is.map Item.pair = (PricedVar.p, input) :: (PricedVar.c, output) :: present billingCacheVars cache ∧
      cache.length = billingCacheVars.length := by
  obtain ⟨input', mid, hinput, h⟩ := mem_andThen.1 h
  obtain ⟨w, w', u, rfl, hw, hw', h⟩ := mem_plus.1 h
  obtain ⟨output', mid', houtput, h⟩ := mem_andThen.1 h
  obtain ⟨cache', hcache, heq⟩ := mem_map.1 h
  cases heq
  obtain ⟨is, t, rfl, hterms, hpairs, hlen⟩ := cache_terms hcache
  obtain ⟨g, g', rfl, hg, hg', hne, hnum⟩ := mem_price.1 houtput
  obtain ⟨k, k', rfl, hk, hk', hne', hnum'⟩ := mem_price.1 hinput
  let u' := w ++ '+' :: (w' ++ (['c'] ++ (g ++ '*' :: (g' ++ (output ++ t)))))
  refine ⟨⟨.p, input, u'.head? == some '+'⟩ :: ⟨.c, output, t.head? == some '+'⟩ :: is,
    ['p'] ++ (k ++ '*' :: (k' ++ (input ++ u'))), ?_, ?_, ?_, hlen⟩
  · simp only [u', append_assoc, cons_append]
  · exact ⟨u', ⟨k, k', rfl, hk, hk', ⟨hne', hnum'⟩, rfl⟩, w, w', _, t, rfl, hw, hw',
      ⟨g, g', rfl, hg, hg', ⟨hne, hnum⟩, rfl⟩, hterms⟩
  · rw [map_cons, map_cons, hpairs]
    rfl

/-! ## The scan for one price after the other -/

theorem White.head {g s : Text} (h : White g) {p : Char → Bool} (hp : ∀ c, isBlank c = true → p c = false)
    (hs : s.head?.any p = false) : (g ++ s).head?.any p = false := by
  cases g with
  | nil => exact hs
  | cons c => exact hp c (h c mem_cons_self)

theorem head_star_blank (s : Text) : ('*' :: s).head?.any isBlank = false := rfl

theorem head_star_word (s : Text) : ('*' :: s).head?.any isWord = false := rfl

theorem not_blank_numeral {c : Char} (h : isNumeral c = true) : isBlank c = false := by
  rw [← Bool.not_eq_true]
  intro hb
  rw [not_numeral_of_blank hb] at h
  cases h

theorem run_numeral {i : Item} (h : i.number ≠ [] ∧ ∀ c ∈ i.number, isNumeral c = true) :
    i.run ≠ [] ∧ ∀ c ∈ i.run, isNumeral c = true := by
  unfold Item.run
  split
  · refine ⟨concat_ne_nil _ _, fun c hc => ?_⟩
    rcases mem_append.1 hc with hc | hc
    · exact h.2 c hc
    · rw [mem_singleton.1 hc]
      decide
  · exact h

theorem head_numeral {n s : Text} (h : n ≠ [] ∧ ∀ c ∈ n, isNumeral c = true) : (n ++ s).head?.any isBlank = false := by
  cases n with
  | nil => exact absurd rfl h.1
  | cons c => exact not_blank_numeral (h.2 c mem_cons_self)

/-- A name, and a star behind it: it is known where the name ends. -/
theorem name_unique {v w : PricedVar} {g k x y : Text} (hg : White g) (hk : White k)
    (h : v.key ++ (g ++ '*' :: x) = w.key ++ (k ++ '*' :: y)) : v = w ∧ g ++ '*' :: x = k ++ '*' :: y := by
  obtain ⟨hkey, hrest⟩ := eq_of_run (key_word v) (key_word w) (hg.head (fun _ => not_word_of_blank) (head_star_word _))
    (hk.head (fun _ => not_word_of_blank) (head_star_word _)) h
  exact ⟨key_inj hkey, hrest⟩

theorem mem_varOf {s rest : Text} {v : PricedVar} :
    (v, rest) ∈ (oneOf (PricedVar.all.map fun v => (lit v.key).map fun _ => v)).run s ↔ s = v.key ++ rest :=
  mem_words.trans (and_iff_right (by cases v <;> decide))

/-- `\s*\*\s*([\d.eE+-]+)` behind a name. -/
def numberOf (v : PricedVar) : Pattern (PricedVar × Text) :=
  blanks.andThen fun _ => (lit ['*']).andThen fun _ => blanks.andThen fun _ =>
    (atLeastOne isNumeral).map fun number => (v, number)

theorem numberOf_exec {v : PricedVar} {g g' n rest : Text} (hg : White g) (hg' : White g')
    (hn : n ≠ [] ∧ ∀ c ∈ n, isNumeral c = true) (hrest : rest.head?.any isNumeral = false) :
    (numberOf v).exec (g ++ '*' :: (g' ++ (n ++ rest))) = some ((v, n), rest) := by
  have hnum : ((atLeastOne isNumeral).map fun number => (v, number)).exec (n ++ rest) = some ((v, n), rest) := by
    rw [exec_map, exec_atLeastOne hn.1 hn.2 hrest]
    rfl
  exact exec_andThen (exec_many hg (head_star_blank _)) (exec_andThen (exec_lit ['*'] (g' ++ (n ++ rest)))
    (exec_andThen (exec_many hg' (head_numeral hn)) hnum))

variable {before : Option Char}

/-- Behind a name that a star follows, the scan reads the name and all that belongs to a number. -/
theorem billingVarRegex_exec {i : Item} {g g' rest : Text} (hbefore : before.any isWord = false)
    (hg : White g) (hg' : White g') (hn : i.number ≠ [] ∧ ∀ c ∈ i.number, isNumeral c = true)
    (hrest : rest.head?.any isNumeral = false) :
    (billingVarRegex before).exec (i.name.key ++ (g ++ '*' :: (g' ++ (i.run ++ rest)))) =
      some ((i.name, i.run), rest) := by
  have hnumber := numberOf_exec (v := i.name) hg hg' (run_numeral hn) hrest
  have hname : ((oneOf (PricedVar.all.map fun v => (lit v.key).map fun _ => v)).andThen numberOf).exec
      (i.name.key ++ (g ++ '*' :: (g' ++ (i.run ++ rest)))) = some ((i.name, i.run), rest) := by
    refine exec_andThen_only (mem_varOf.2 rfl) (fun w mid hw hne => ?_) hnumber
    have heq := mem_varOf.1 hw
    obtain ⟨m, hm⟩ := Option.ne_none_iff_exists'.1 hne
    obtain ⟨k, s1, h1, hm⟩ := mem_andThen.1 (exec_mem hm)
    obtain ⟨_, s2, h2, hm⟩ := mem_andThen.1 hm
    obtain ⟨rfl, hk⟩ := mem_many.1 h1
    rw [mem_lit.1 h2] at heq
    obtain ⟨hvar, hmid⟩ := name_unique hg hk heq
    exact ⟨hvar.symm, by rw [mem_lit.1 h2]; exact hmid.symm⟩
  have hword : (i.name.key ++ (g ++ '*' :: (g' ++ (i.run ++ rest)))).head?.any isWord = true := by
    cases hkey : i.name.key with
    | nil => exact absurd hkey (key_ne_nil i.name)
    | cons c => exact key_word i.name c (by rw [hkey]; exact mem_cons_self)
  exact exec_andThen (exec_boundary (by rw [hbefore, hword]; decide)) hname

/-- No price begins with white space or a plus sign. -/
theorem billingVarRegex_skip {c : Char} {s : Text} (hc : isBlank c = true ∨ c = '+') :
    (billingVarRegex before).exec (c :: s) = none := by
  refine exec_none_of fun m rest hm => ?_
  obtain ⟨_, mid, hb, hm⟩ := mem_andThen.1 hm
  obtain ⟨rfl, -⟩ := mem_boundary.1 hb
  obtain ⟨v, mid', hv, -⟩ := mem_andThen.1 hm
  have heq := mem_varOf.1 hv
  cases hkey : v.key with
  | nil => exact key_ne_nil v hkey
  | cons =>
    rw [hkey, cons_append] at heq
    obtain ⟨rfl, -⟩ := cons.inj heq
    have hword := key_word v c (by rw [hkey]; exact mem_cons_self)
    rcases hc with hc | rfl
    · rw [not_word_of_blank hc] at hword
      cases hword
    · exact absurd hword (by decide)

/-- A numeral that ends with a plus sign, and a name behind it: the plus sign is the one between two prices. -/
def isGlued (numeral behind : Text) : Bool :=
  numeral.getLast? == some '+' && (behind.dropWhile isBlank).head?.any isWord

/-- What follows the number of a price: nothing, or white space and plus signs before the next one. -/
def Further : List Item → Option Char → Text → Prop
  | [], _, rest => rest = []
  | i :: is, before, rest =>
    ∃ x u behind, rest = x ++ u ∧ (∀ c ∈ x, isBlank c = true ∨ c = '+') ∧ (x = [] → before.any isWord = false) ∧
      Priced i u behind ∧ Terms is behind

variable {is : List Item}

/-- The text behind a price, with the plus sign taken as a part of the number. -/
theorem Priced.further {i : Item} {t behind : Text} (h : Priced i t behind) (hterms : Terms is behind) :
    ∃ g g' rest, t = i.name.key ++ (g ++ '*' :: (g' ++ (i.run ++ rest))) ∧ White g ∧ White g' ∧
      (i.number ≠ [] ∧ ∀ c ∈ i.number, isNumeral c = true) ∧ rest.head?.any isNumeral = false ∧
      (∀ z, isGlued i.run (rest ++ ')' :: z) = i.glued) ∧ Further is i.run.getLast? rest := by
  obtain ⟨g, g', rfl, hg, hg', hn, hglued⟩ := h
  cases is with
  | nil =>
    have hnil : behind = [] := hterms
    subst hnil
    have hrun : i.run = i.number := if_neg (by rw [hglued]; decide)
    refine ⟨g, g', [], by rw [hrun], hg, hg', hn, rfl, fun z => ?_, rfl⟩
    rw [hglued]
    exact Bool.and_false _
  | cons j =>
    obtain ⟨w, w', u, behind', rfl, hw, hw', hj, hjs⟩ := hterms
    have hj' := hj
    obtain ⟨k, k', hu, -, -, -, -⟩ := hj'
    have hnext : (w' ++ u).head?.any isNumeral = false := by
      refine hw'.head (fun _ => not_numeral_of_blank) ?_
      rw [hu]
      cases j.name <;> rfl
    cases w with
    | nil =>
      have hrun : i.run = i.number ++ ['+'] := if_pos (by rw [hglued]; rfl)
      refine ⟨g, g', w' ++ u, ?_, hg, hg', hn, hnext, fun z => ?_, w', u, behind', rfl,
        fun c hc => Or.inl (hw' c hc), ?_, hj, hjs⟩
      · rw [hrun, append_assoc]
        rfl
      · have hname : ((u ++ ')' :: z).dropWhile isBlank).head?.any isWord = true := by
          rw [hu]
          cases j.name <;> rfl
        rw [isGlued, hrun, getLast?_concat, append_assoc, dropWhile_append_of_pos hw', hname, hglued]
        rfl
      · intro _
        rw [hrun, getLast?_concat]
        decide
    | cons c w =>
      have hplus : c ≠ '+' := by
        rintro rfl
        exact absurd (hw '+' mem_cons_self) (by decide)
      have hrun : i.run = i.number := by
        refine if_neg ?_
        rw [hglued]
        simpa using hplus
      refine ⟨g, g', c :: w ++ '+' :: (w' ++ u), by rw [hrun], hg, hg', hn, ?_, fun z => ?_, c :: w ++ '+' :: w', u,
        behind', ?_, ?_, ?_, hj, hjs⟩
      · exact not_numeral_of_blank (hw c mem_cons_self)
      · have hplain : i.glued = false := by
          rw [hglued]
          simpa using hplus
        have hmore : ((c :: w ++ '+' :: (w' ++ u) ++ ')' :: z).dropWhile isBlank).head?.any isWord = false := by
          rw [append_assoc, dropWhile_append_of_pos hw]
          rfl
        rw [isGlued, hmore, Bool.and_false, hplain]
      · simp only [append_assoc, cons_append]
      · intro d hd
        rcases mem_append.1 hd with hd | hd
        · exact Or.inl (hw d hd)
        · rcases mem_cons.1 hd with rfl | hd
          · exact Or.inr rfl
          · exact Or.inl (hw' d hd)
      · intro h
        cases h

theorem matchedText_append (t rest : Text) : matchedText (t ++ rest) rest = t := by
  rw [matchedText, length_append, Nat.add_sub_cancel, take_left]

/-- The scan goes over white space and plus signs. -/
theorem scan_skip {x u : Text} {n : ℕ} (hx : ∀ c ∈ x, isBlank c = true ∨ c = '+')
    (hbefore : x = [] → before.any isWord = false) :
    ∃ before', before'.any isWord = false ∧
      execAllFrom billingVarRegex (n + x.length) before (x ++ u) = execAllFrom billingVarRegex n before' u := by
  induction x generalizing before with
  | nil => exact ⟨before, hbefore rfl, rfl⟩
  | cons c _ ih =>
    obtain ⟨hc, hx⟩ := forall_mem_cons.1 hx
    have hword : (some c).any isWord = false := by
      rcases hc with hc | rfl
      · exact not_word_of_blank hc
      · decide
    obtain ⟨before', hbefore', heq⟩ := @ih (some c) hx fun _ => hword
    exact ⟨before', hbefore', (execAllFrom_skip (billingVarRegex_skip hc)).trans heq⟩

/-- The scan finds the prices of a sum, each with all that can be taken as its number. -/
theorem scan_further {n : ℕ} {rest : Text} (h : Further is before rest)
    (hn : rest.length < n) : execAllFrom billingVarRegex n before rest = is.map fun i => (i.name, i.run) := by
  induction is generalizing n before rest with
  | nil =>
    have hnil : rest = [] := h
    subst hnil
    refine execAllFrom_nil (exec_none_of fun m rest hm => ?_)
    obtain ⟨_, mid, hb, hm⟩ := mem_andThen.1 hm
    obtain ⟨rfl, -⟩ := mem_boundary.1 hb
    obtain ⟨v, mid', hv, -⟩ := mem_andThen.1 hm
    exact key_ne_nil v (append_eq_nil_iff.1 (mem_varOf.1 hv).symm).1
  | cons i _ ih =>
    obtain ⟨x, u, behind, rfl, hx, hempty, hi, hterms⟩ := h
    obtain ⟨g, g', rest, rfl, hg, hg', hnum, hrest, -, hfurther⟩ := hi.further hterms
    rw [length_append] at hn
    obtain ⟨m, rfl⟩ : ∃ m, n = m + x.length := ⟨n - x.length, by omega⟩
    obtain ⟨before', hbefore', hskip⟩ := scan_skip (n := m) hx hempty
    rw [hskip]
    -- the match takes at least the name, so that there are enough steps for the rest
    obtain ⟨k, rfl⟩ : ∃ k, m = k + 1 := ⟨m - 1, by omega⟩
    have hexec := billingVarRegex_exec hbefore' hg hg' hnum hrest
    rw [execAllFrom_match hexec, map_cons]
    have htext : i.name.key ++ (g ++ '*' :: (g' ++ (i.run ++ rest))) =
        (i.name.key ++ (g ++ '*' :: g') ++ i.run) ++ rest := by
      simp only [append_assoc, cons_append]
    have hlast : ((matchedText (i.name.key ++ (g ++ '*' :: (g' ++ (i.run ++ rest)))) rest).getLast?.or before') =
        i.run.getLast? := by
      rw [htext, matchedText_append, getLast?_append]
      cases hrun : i.run.getLast? with
      | none => exact absurd (getLast?_eq_none_iff.1 hrun) (run_numeral hnum).1
      | some => rfl
    rw [hlast, ih hfurther]
    rw [length_append, length_append, length_cons, length_append, length_append] at hn
    omega

/-- The prices that the display finds in a sum of prices. -/
theorem scan_body {t : Text} (h : TierBody is t) :
    execAll billingVarRegex t = is.map fun i => (i.name, i.run) := by
  cases is with
  | nil => exact h.elim
  | cons =>
    obtain ⟨behind, hi, hterms⟩ := h
    exact scan_further ⟨[], t, behind, rfl, by simp, fun _ => rfl, hi, hterms⟩ (Nat.lt_succ_self _)

end NovaMaas.Pricing
