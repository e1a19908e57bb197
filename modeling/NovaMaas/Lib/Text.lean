/-
  Strings as Go's `strings` and `unicode` packages treat them, as far as the modules need them: white space at the two
  ends of a string is trimmed; decimal numbers and hexadecimal bytes are read.  And values that are written as JSON and
  read back.
-/
import Mathlib

open List

namespace NovaMaas

/-- `unicode.IsSpace`. -/
def isSpace (c : Char) : Bool :=
  [0x09, 0x0A, 0x0B, 0x0C, 0x0D, 0x20, 0x85, 0xA0, 0x1680, 0x2028, 0x2029, 0x202F, 0x205F,
    0x3000].contains c.toNat || (0x2000 ≤ c.toNat && c.toNat ≤ 0x200A)

/-- `strings.TrimSpace`. -/
def trimSpace (s : String) : String :=
  String.ofList (((s.toList.dropWhile isSpace).reverse.dropWhile isSpace).reverse)

theorem toList_trimSpace (s : String) :
    (trimSpace s).toList = (s.toList.dropWhile isSpace).rdropWhile isSpace := String.toList_ofList

/-- What is trimmed to nothing is all white space. -/
theorem trimSpace_eq_empty_iff {s : String} : trimSpace s = "" ↔ ∀ c ∈ s.toList, isSpace c = true := by
  rw [String.ext_iff, toList_trimSpace]
  show rdropWhile _ _ = [] ↔ _
  rw [rdropWhile_eq_nil_iff]
  constructor
  · intro h
    -- the first character that is kept would be no space
    have hnil : s.toList.dropWhile isSpace = [] := by
      by_contra hne
      exact absurd (h _ (head_mem hne)) (by rw [head_dropWhile_not isSpace hne]; decide)
    exact dropWhile_eq_nil_iff.1 hnil
  · intro h c hc
    exact h c ((dropWhile_suffix isSpace).subset hc)

/-- A string that was trimmed stays as it is. -/
theorem trimSpace_trimSpace (s : String) : trimSpace (trimSpace s) = trimSpace s := by
  rw [String.ext_iff, toList_trimSpace (trimSpace s), toList_trimSpace s]
  set l := (s.toList.dropWhile isSpace).rdropWhile isSpace with hl
  have hfront : l.dropWhile isSpace = l := by
    refine dropWhile_eq_self_iff.2 fun hlen => ?_
    -- it starts as what was kept at the front does
    have hprefix : l <+: s.toList.dropWhile isSpace := rdropWhile_prefix _ _
    have hne : s.toList.dropWhile isSpace ≠ [] := fun hnil => by
      rw [hnil, prefix_nil] at hprefix
      rw [ hprefix] at hlen
      exact absurd hlen (by decide)
    have hhead := head_dropWhile_not isSpace hne
    rw [head_eq_getElem, ← hprefix.getElem hlen] at hhead
    rw [hhead]
    decide
  rw [hfront, hl, rdropWhile_idempotent]

/-! ## Parts of a string -/

def hasPrefix (s start : String) : Bool := start.toList.isPrefixOf s.toList

def hasSuffix (s ending : String) : Bool := ending.toList.isSuffixOf s.toList

/-- `strings.TrimSuffix`. -/
def trimSuffix (s ending : String) : String :=
  if hasSuffix s ending then String.ofList (s.toList.take (s.toList.length - ending.toList.length)) else s

/-- `strings.TrimPrefix`. -/
def trimPrefix (s start : String) : String :=
  if hasPrefix s start then String.ofList (s.toList.drop start.toList.length) else s

/-- What stands before and behind the first place of a text. -/
def cutList (sub : List Char) : List Char → Option (List Char × List Char)
  | [] => if sub = [] then some ([], []) else none
  | c :: s =>
    if sub.isPrefixOf (c :: s) then some ([], (c :: s).drop sub.length)
    else (cutList sub s).map fun p => (c :: p.1, p.2)

/-- `strings.Cut`. -/
def cut (s sub : String) : Option (String × String) :=
  (cutList sub.toList s.toList).map fun p => (String.ofList p.1, String.ofList p.2)

/-- `strings.Contains`. -/
def containsText (s sub : String) : Bool := (cut s sub).isSome

/-- `strings.Replace` with the count 1. -/
def replaceFirst (s old new : String) : String :=
  match cut s old with
  | none => s
  | some (before, behind) => before ++ new ++ behind

def splitList (sep : Char) : List Char → List (List Char)
  | [] => [[]]
  | c :: s =>
    if c = sep then [] :: splitList sep s
    else
      match splitList sep s with
      | [] => [[c]]
      | first :: rest => (c :: first) :: rest

/-- `strings.Split` at a character. -/
def splitAt (s : String) (sep : Char) : List String := (splitList sep s.toList).map String.ofList

/-! ## JSON -/

/-- Values that are written as JSON: what is written is read back as the same value. -/
structure JsonCodec (J : Type) where
  marshal       : J → String
  parse         : String → Option J
  parse_marshal : ∀ v, parse (marshal v) = some v

/-- JSON values, as their shortest texts. -/
def compactJson : JsonCodec String where
  marshal := fun v => v
  parse := some
  parse_marshal := fun _ => rfl

/-! ## Numbers and bytes -/

def digitValue (c : Char) : Option ℕ := if c.isDigit then some (c.toNat - '0'.toNat) else none

/-- The number of decimal digits. -/
def parseDigits : ℕ → List Char → Option ℕ
  | n, [] => some n
  | n, c :: s => (digitValue c).bind fun d => parseDigits (10 * n + d) s

/-- `strconv.ParseInt` of base 10, for 64 bits. -/
def parseInt (s : String) : Option ℤ :=
  let signed : ℤ × List Char :=
    match s.toList with
    | '-' :: digits => (-1, digits)
    | '+' :: digits => (1, digits)
    | digits => (1, digits)
  if signed.2 = [] then none
  else ((parseDigits 0 signed.2).map fun n => signed.1 * n).filter fun n => -2 ^ 63 ≤ n && n < 2 ^ 63

def hexValue (c : Char) : Option ℕ :=
  if '0' ≤ c ∧ c ≤ '9' then some (c.toNat - '0'.toNat)
  else if 'a' ≤ c ∧ c ≤ 'f' then some (c.toNat - 'a'.toNat + 10)
  else if 'A' ≤ c ∧ c ≤ 'F' then some (c.toNat - 'A'.toNat + 10)
  else none

def hexBytes : List Char → Option (List ℕ)
  | [] => some []
  | [_] => none
  | c :: d :: s => (hexValue c).bind fun x => (hexValue d).bind fun y => (hexBytes s).map fun bytes => (16 * x + y) :: bytes

/-- `hex.DecodeString`. -/
def hexDecodeString (s : String) : Option (List ℕ) := hexBytes s.toList

def hexDigit (n : ℕ) : Char := if n < 10 then Char.ofNat ('0'.toNat + n) else Char.ofNat ('a'.toNat + (n - 10))

/-- `hex.EncodeToString`. -/
def hexEncodeToString (bytes : List ℕ) : String :=
  String.ofList (bytes.flatMap fun byte => [hexDigit (byte / 16), hexDigit (byte % 16)])

end NovaMaas
