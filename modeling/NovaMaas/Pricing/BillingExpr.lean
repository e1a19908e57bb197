/-
  Prices as they are read out of a billing expression for display (`parseTiersFromExpr`).

  A billing expression is a text.  The price page reads it with two regular expressions: one finds the tiers, each with
  the condition before it, its label and what stands between the label and the next closing parenthesis; the other one
  finds the prices in that.  JavaScript's numbers are a parameter: the rounding of a decimal to a number and the text of
  a number are not modelled, but which texts are decimals is.  NaN is `none`.
-/
import NovaMaas.Lib.Regex

namespace NovaMaas.Pricing

open Pattern

abbrev Text := List Char

/-! ## Characters and numbers of JavaScript -/

/-- `\s`, and what `trim` takes away. -/
def isBlank (c : Char) : Bool :=
  [0x09, 0x0A, 0x0B, 0x0C, 0x0D, 0x20, 0xA0, 0x1680, 0x2028, 0x2029, 0x202F, 0x205F, 0x3000, 0xFEFF].contains c.toNat ||
    (0x2000 ≤ c.toNat && c.toNat ≤ 0x200A)

/-- `\w`. -/
def isWord (c : Char) : Bool := c.isAlphanum || c == '_'

/-- `[\d.eE+-]`. -/
def isNumeral (c : Char) : Bool := c.isDigit || ['.', 'e', 'E', '+', '-'].contains c

/-- `[\d.eE+]`. -/
def isThreshold (c : Char) : Bool := c.isDigit || ['.', 'e', 'E', '+'].contains c

/-- `trim`. -/
def trim (s : Text) : Text := ((s.dropWhile isBlank).reverse.dropWhile isBlank).reverse

/-- The numbers of JavaScript other than NaN. -/
structure JsNumbers (F : Type) where
  zero       : F
  /-- The number nearest to a decimal. -/
  round      : ℚ → F
  /-- `Number.prototype.toString`. -/
  text       : F → Text
  text_plain : ∀ x, '"' ∉ text x

/-- A number, or NaN. -/
abbrev Num (F : Type) := Option F

/-- A decimal literal, as it is written. -/
structure Decimal where
  negative : Bool
  whole    : Text
  fraction : Text
  exponent : Option (Bool × Text)

def ofDigits (digits : Text) : ℕ := digits.foldl (fun n c => n * 10 + (c.toNat - '0'.toNat)) 0

def Decimal.value (d : Decimal) : ℚ :=
  (if d.negative then -1 else 1) * (ofDigits (d.whole ++ d.fraction) / 10 ^ d.fraction.length) *
    d.exponent.elim 1 fun e => if e.1 then ((10 : ℚ) ^ ofDigits e.2)⁻¹ else 10 ^ ofDigits e.2

/-- A sign, or none; is it a minus? -/
def sign : Pattern Bool := (optional (one fun c => c == '+' || c == '-')).map fun c => c == some '-'

def digits : Pattern Text := atLeastOne Char.isDigit

/-- The digits before and behind the point. -/
def mantissa : Pattern (Text × Text) :=
  or
    (digits.andThen fun whole =>
      (optional ((lit ['.']).andThen fun _ => many Char.isDigit)).map fun fraction => (whole, fraction.getD []))
    ((lit ['.']).andThen fun _ => digits.map fun fraction => ([], fraction))

def exponentPart : Pattern (Bool × Text) :=
  (one fun c => c == 'e' || c == 'E').andThen fun _ => sign.andThen fun negative => digits.map fun ds => (negative, ds)

/-- `StrDecimalLiteral`, but for `Infinity`. -/
def decimalLiteral : Pattern Decimal :=
  sign.andThen fun negative => mantissa.andThen fun m => (optional exponentPart).map fun e => ⟨negative, m.1, m.2, e⟩

namespace JsNumbers

variable {F : Type} (N : JsNumbers F)

/-- `Number` of a text of digits, points, signs and the letter e. -/
def number (text : Text) : Num F := (decimalLiteral.execWhole text).map fun d => N.round d.value

/-- `x || 0`. -/
def orZero (x : Num F) : F := x.getD N.zero

/-- A number written into a text. -/
def written (x : Num F) : Text := x.elim "NaN".toList N.text

end JsNumbers

/-! ## The variables of a billing expression -/

/-- `BILLING_PRICING_VARS`. -/
inductive PricedVar where
  | p | c | cr | cc | cc1h | img | img_o | ai | ao
  deriving DecidableEq

namespace PricedVar

def key : PricedVar → Text
  | p => ['p']
  | c => ['c']
  | cr => ['c', 'r']
  | cc => ['c', 'c']
  | cc1h => ['c', 'c', '1', 'h']
  | img => ['i', 'm', 'g']
  | img_o => ['i', 'm', 'g', '_', 'o']
  | ai => ['a', 'i']
  | ao => ['a', 'o']

def all : List PricedVar := [p, c, cr, cc, cc1h, img, img_o, ai, ao]

end PricedVar

/-- `BILLING_CACHE_VAR_MAP`. -/
def billingCacheVars : List PricedVar := [.cr, .cc, .cc1h, .img, .img_o, .ai, .ao]

/-- `BILLING_CONDITION_VARS`. -/
inductive CondVar where
  | p | c | len

def CondVar.key : CondVar → Text
  | p => ['p']
  | c => ['c']
  | len => ['l', 'e', 'n']

inductive CondOp where
  | lt | le | gt | ge

def CondOp.key : CondOp → Text
  | lt => ['<']
  | le => ['<', '=']
  | gt => ['>']
  | ge => ['>', '=']

/-! ## The regular expressions -/

def blanks : Pattern Text := many isBlank

/-- `name\s*\*\s*([\d.eE+-]+)`. -/
def price (name : Text) : Pattern Text :=
  (lit name).andThen fun _ => blanks.andThen fun _ => (lit ['*']).andThen fun _ => blanks.andThen fun _ =>
    atLeastOne isNumeral

/-- `BILLING_VAR_REGEX`. -/
def billingVarRegex (before : Option Char) : Pattern (PricedVar × Text) :=
  (boundary isWord before).andThen fun _ =>
    (oneOf (PricedVar.all.map fun v => (lit v.key).map fun _ => v)).andThen fun v =>
      blanks.andThen fun _ => (lit ['*']).andThen fun _ => blanks.andThen fun _ =>
        (atLeastOne isNumeral).map fun number => (v, number)

/-- `(p|c|len)\s*(<|<=|>|>=)\s*([\d.eE+]+)`. -/
def comparison : Pattern (CondVar × CondOp × Text) :=
  (oneOf ([CondVar.p, .c, .len].map fun v => (lit v.key).map fun _ => v)).andThen fun v => blanks.andThen fun _ =>
    (oneOf ([CondOp.lt, .le, .gt, .ge].map fun op => (lit op.key).map fun _ => op)).andThen fun op =>
      blanks.andThen fun _ => (atLeastOne isThreshold).map fun value => (v, op, value)

/-- `\s*&&\s*`. -/
def conjunction : Pattern Unit := blanks.andThen fun _ => (lit ['&', '&']).andThen fun _ => blanks.map fun _ => ()

/-- `condGroup`. -/
def condGroup : Pattern Text :=
  captured (comparison.andThen fun _ => star (conjunction.andThen fun _ => comparison))

/-- `(?:condGroup\s*\?\s*)?`. -/
def condPart : Pattern (Option Text) :=
  optional (condGroup.andThen fun cond => blanks.andThen fun _ => (lit ['?']).andThen fun _ => blanks.map fun _ => cond)

/-- `tier\("([^"]*)",\s*`. -/
def tierHead : Pattern Text :=
  (lit "tier(\"".toList).andThen fun _ => (many fun c => c != '"').andThen fun label =>
    (lit ['"', ',']).andThen fun _ => blanks.map fun _ => label

/-- `tier("label", prices)`: the label and the prices, as a pattern for these gives them. -/
def tierCall {α : Type} (prices : Pattern α) : Pattern (Text × α) :=
  tierHead.andThen fun label => prices.andThen fun ps => (lit [')']).map fun _ => (label, ps)

/-- The regular expression for a tier, with the condition before it. -/
def tierRe {α : Type} (prices : Pattern α) : Pattern (Option Text × Text × α) :=
  condPart.andThen fun cond => (tierCall prices).map fun m => (cond, m)

/-- `[^)]+`. -/
def noParen : Pattern Text := atLeastOne fun c => c != ')'

/-- `v(\d+):`. -/
def version : Pattern Text :=
  (lit ['v']).andThen fun _ => (atLeastOne Char.isDigit).andThen fun ds => (lit [':']).map fun _ => ds

/-! ## What is displayed -/

/-- `stripExprVersion`, the body. -/
def stripExprVersion (expr : Text) : Text := (version.exec expr).elim expr Prod.snd

section

variable {F : Type} (N : JsNumbers F)

structure TierCondition (F : Type) where
  var   : CondVar
  op    : CondOp
  value : Num F

/-- The conditions of a tier, from the text before the question mark. -/
def parseConditions (cond : Text) : List (TierCondition F) :=
  if cond = [] then []
  else
    (conjunction.split cond).filterMap fun part =>
      (comparison.execWhole (trim part)).map fun m => ⟨m.1, m.2.1, N.number m.2.2⟩

/-- A tier as it is displayed. -/
structure ParsedTier (F : Type) where
  label      : Text
  conditions : List (TierCondition F)
  price      : PricedVar → F

/-- `parseTierBody`. -/
def parseTierBody (body : Text) : PricedVar → F :=
  fun v => N.orZero (((execAll billingVarRegex body).find? fun m => m.1 = v).bind fun m => N.number m.2)

/-- The tier of a match. -/
def parsedTier (m : Option Text × Text × Text) : ParsedTier F where
  label := m.2.1
  conditions := parseConditions N (m.1.getD [])
  price := parseTierBody N m.2.2

def parseTiersFromExpr (expr : Text) : List (ParsedTier F) :=
  if expr = [] then []
  else
    (execAll (fun _ => tierRe noParen) (stripExprVersion expr)).map (parsedTier N)

end

end NovaMaas.Pricing
