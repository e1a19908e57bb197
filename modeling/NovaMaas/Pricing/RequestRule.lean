/-
  Request rules of a billing expression: groups of conditions on a request, each with a multiplier, how the editor
  writes them into an expression (`buildRequestRuleExpr`) and how it reads them back (`tryParseRequestRuleExpr`).

  A group is written as a conditional in parentheses, and the groups are multiplied.  The reader takes a text apart
  before it looks at the parts: at ` * `, and within a group at ` && `, wherever as many parentheses are closed as are
  opened, counting those in string literals too.  A condition is then known by one of a row of regular expressions.
-/
import NovaMaas.Pricing.TierExpr

namespace NovaMaas.Pricing

open Pattern

/-! ## Conditions -/

/-- `TIME_FUNCS`. -/
inductive TimeFunc where
  | hour | minute | weekday | month | day
  deriving DecidableEq

def TimeFunc.key : TimeFunc → Text
  | hour => ['h', 'o', 'u', 'r']
  | minute => ['m', 'i', 'n', 'u', 't', 'e']
  | weekday => ['w', 'e', 'e', 'k', 'd', 'a', 'y']
  | month => ['m', 'o', 'n', 't', 'h']
  | day => ['d', 'a', 'y']

def TimeFunc.all : List TimeFunc := [hour, minute, weekday, month, day]

/-- The sources of a condition on the request itself. -/
inductive RequestSource where
  | param | header
  deriving DecidableEq

def RequestSource.key : RequestSource → Text
  | param => ['p', 'a', 'r', 'a', 'm']
  | header => ['h', 'e', 'a', 'd', 'e', 'r']

/-- `MATCH_EQ`, `MATCH_CONTAINS` and so on. -/
inductive MatchMode where
  | eq | contains | gt | gte | lt | lte | exist | range
  deriving DecidableEq

inductive RequestCondition where
  | paramHeader (source : RequestSource) (path : Text) (mode : MatchMode) (value : Text)
  | time (timeFunc : TimeFunc) (timezone : Text) (mode : MatchMode) (value rangeStart rangeEnd : Text)
  deriving DecidableEq

structure RequestRuleGroup where
  conditions : List RequestCondition
  multiplier : Text
  deriving DecidableEq

/-- `getRequestRuleMatchOptions` for a parameter or a header. -/
def requestMatchOptions : RequestSource → List MatchMode
  | .header => [.eq, .contains, .exist]
  | .param => [.eq, .contains, .exist, .gt, .gte, .lt, .lte]

/-- `getRequestRuleMatchOptions` for a time. -/
def timeMatchOptions : List MatchMode := [.eq, .gte, .lt, .range]

def normalizeCondition : RequestCondition → RequestCondition
  | .paramHeader source path mode value =>
    .paramHeader source path (if mode ∈ requestMatchOptions source then mode else .eq) value
  | .time timeFunc timezone mode value rangeStart rangeEnd =>
    .time timeFunc (if timezone = [] then "Asia/Shanghai".toList else timezone)
      (if mode ∈ timeMatchOptions then mode else .gte) value rangeStart rangeEnd

/-! ## Literals -/

/-- `NUMERIC_LITERAL_REGEX`. -/
def numericLiteralRegex : Pattern Unit :=
  (optional (lit ['-'])).andThen fun _ =>
    (or (digits.andThen fun _ => (optional (lit ['.'])).andThen fun _ => (many Char.isDigit).map fun _ => ())
      ((lit ['.']).andThen fun _ => digits.map fun _ => ())).andThen fun _ =>
        (optional ((one fun c => c == 'e' || c == 'E').andThen fun _ =>
          (optional (one fun c => c == '+' || c == '-')).andThen fun _ => digits)).map fun _ => ()

def isNumericLiteral (text : Text) : Bool := (numericLiteralRegex.execWhole text).isSome

/-- A digit of a hexadecimal number. -/
def hexDigit (n : ℕ) : Char := Nat.digitChar n

/-- How a character is written in a JSON string. -/
def escapeChar (c : Char) : Text :=
  if c = '"' then ['\\', '"']
  else if c = '\\' then ['\\', '\\']
  else if c.toNat = 0x08 then ['\\', 'b']
  else if c.toNat = 0x0C then ['\\', 'f']
  else if c = '\n' then ['\\', 'n']
  else if c = '\r' then ['\\', 'r']
  else if c = '\t' then ['\\', 't']
  else if c.toNat < 0x20 then ['\\', 'u', '0', '0', hexDigit (c.toNat / 16), hexDigit (c.toNat % 16)]
  else [c]

def escape (s : Text) : Text := s.flatMap escapeChar

/-- `JSON.stringify` of a string. -/
def jsonStringify (s : Text) : Text := '"' :: (escape s ++ ['"'])

def hexValue (c : Char) : Option ℕ :=
  if c.isDigit then some (c.toNat - '0'.toNat)
  else if 'a' ≤ c ∧ c ≤ 'f' then some (c.toNat - 'a'.toNat + 10)
  else if 'A' ≤ c ∧ c ≤ 'F' then some (c.toNat - 'A'.toNat + 10)
  else none

/-- The character of four hexadecimal digits; a surrogate is none. -/
def hexChar (a b c d : Char) : Option Char :=
  (hexValue a).bind fun a => (hexValue b).bind fun b => (hexValue c).bind fun c => (hexValue d).bind fun d =>
    if (((a * 16 + b) * 16 + c) * 16 + d).isValidChar then some (Char.ofNat (((a * 16 + b) * 16 + c) * 16 + d)) else none

/-- The character of an escape of one letter. -/
def shortEscape (c : Char) : Option Char :=
  if c = '"' ∨ c = '\\' ∨ c = '/' then some c
  else if c = 'b' then some (Char.ofNat 0x08)
  else if c = 'f' then some (Char.ofNat 0x0C)
  else if c = 'n' then some '\n'
  else if c = 'r' then some '\r'
  else if c = 't' then some '\t'
  else none

/-- The characters of a JSON string behind its first quotation mark, and the text behind it. -/
def jsonChars : Text → Option (Text × Text)
  | [] => none
  | '"' :: rest => some ([], rest)
  | '\\' :: 'u' :: a :: b :: c :: d :: rest =>
    (hexChar a b c d).bind fun e => (jsonChars rest).map fun r => (e :: r.1, r.2)
  | '\\' :: c :: rest => (shortEscape c).bind fun e => (jsonChars rest).map fun r => (e :: r.1, r.2)
  | c :: rest => if c.toNat < 0x20 ∨ c = '\\' then none else (jsonChars rest).map fun r => (c :: r.1, r.2)

/-- `JSON.parse` of a text that begins with a quotation mark. -/
def jsonParseString : Text → Option Text
  | '"' :: rest =>
    match jsonChars rest with
    | some (s, []) => some s
    | _ => none
  | _ => none

/-- `String(JSON.parse(text))` of an array or an object, or none if the text is no JSON. -/
abbrev Structured := Text → Option Text

/-- `parseExprLiteral`, as the string that is made of its result.  Numbers of JSON are numeric literals, and what begins
with none of the characters asked for is no JSON, or `null`. -/
def parseExprLiteral (structured : Structured) (raw : Text) : Option Text :=
  let text := trim raw
  if text = "true".toList ∨ text = "false".toList then some text
  else if isNumericLiteral text then some text
  else if text.head? = some '"' then jsonParseString text
  else if text.head? = some '[' ∨ text.head? = some '\x7b' then structured text
  else none

def buildExprLiteral (mode : MatchMode) (value : Text) : Text :=
  let text := trim value
  if mode = .contains then jsonStringify text
  else if text = "true".toList ∨ text = "false".toList then text
  else if isNumericLiteral text then text
  else jsonStringify text

/-! ## Writing -/

/-- An operator, as it is written. -/
def MatchMode.op : MatchMode → Text
  | .eq => ['=', '=']
  | .gt => ['>']
  | .gte => ['>', '=']
  | .lt => ['<']
  | .lte => ['<', '=']
  | _ => ['=', '=']

/-- `name("text")`. -/
def callStr (name text : Text) : Text := name ++ ['('] ++ jsonStringify text ++ [')']

def buildTimeConditionExpr (timeFunc : TimeFunc) (timezone : Text) (mode : MatchMode) (value rangeStart rangeEnd : Text) :
    Text :=
  let fn := callStr timeFunc.key timezone
  if mode = .range then
    let s := trim rangeStart
    let e := trim rangeEnd
    if !isNumericLiteral s || !isNumericLiteral e then [] else fn ++ " >= ".toList ++ s ++ " || ".toList ++ fn ++
      " < ".toList ++ e
  else
    let v := trim value
    if !isNumericLiteral v then [] else fn ++ [' '] ++ mode.op ++ [' '] ++ v

def buildParamHeaderExpr (source : RequestSource) (path : Text) (mode : MatchMode) (value : Text) : Text :=
  let path := trim path
  if path = [] then []
  else
    let sourceExpr := callStr source.key path
    match mode with
    | .exist => if source = .header then sourceExpr ++ " != \"\"".toList else sourceExpr ++ " != nil".toList
    | .contains =>
      let call := "has(".toList ++ sourceExpr ++ ", ".toList ++ buildExprLiteral mode value ++ [')']
      if source = .header then call else sourceExpr ++ " != nil && ".toList ++ call
    | .gt | .gte | .lt | .lte =>
      let numText := trim value
      if !isNumericLiteral numText then []
      else sourceExpr ++ " != nil && ".toList ++ sourceExpr ++ [' '] ++ mode.op ++ [' '] ++ numText
    | _ => sourceExpr ++ " == ".toList ++ buildExprLiteral mode value

/-- The text of a normalized condition. -/
def conditionExpr : RequestCondition → Text
  | .paramHeader source path mode value => buildParamHeaderExpr source path mode value
  | .time timeFunc timezone mode value rangeStart rangeEnd =>
    buildTimeConditionExpr timeFunc timezone mode value rangeStart rangeEnd

def buildRequestConditionExpr (cond : RequestCondition) : Text := conditionExpr (normalizeCondition cond)

/-- `text.includes(part)`. -/
def includes (part : Text) : Text → Bool
  | [] => part.isPrefixOf []
  | c :: s => part.isPrefixOf (c :: s) || includes part s

/-- A condition beside others. -/
def besideOthers (e : Text) : Text := if includes " || ".toList e then ['('] ++ e ++ [')'] else e

/-- The conditions of a group, as they are joined. -/
def groupParts (group : RequestRuleGroup) : List Text :=
  let condExprs := (group.conditions.map buildRequestConditionExpr).filter fun e => e ≠ []
  if condExprs.length = 1 then condExprs else condExprs.map besideOthers

def buildRuleGroupFactor (group : RequestRuleGroup) : Text :=
  let multiplier := trim group.multiplier
  if !isNumericLiteral multiplier then []
  else if groupParts group = [] then []
  else ['('] ++ join " && ".toList (groupParts group) ++ " ? ".toList ++ multiplier ++ " : 1)".toList

def buildRequestRuleExpr (groups : List RequestRuleGroup) : Text :=
  join " * ".toList ((groups.map buildRuleGroupFactor).filter fun e => e ≠ [])

/-! ## Taking a text apart -/

/-- What a character adds to the number of open parentheses. -/
def parenStep (c : Char) : ℤ := if c = '(' then 1 else if c = ')' then -1 else 0

/-- The parts of a text between the places where the separator stands and no parenthesis is open.  The numbers are those
of characters of a separator that are still to be passed over, and of open parentheses. -/
def cutTopLevel (sep : Text) : ℕ → ℤ → Text → Text → List Text
  | _, _, piece, [] => [piece]
  | skip + 1, depth, piece, _ :: s => cutTopLevel sep skip depth piece s
  | 0, depth, piece, c :: s =>
    if depth + parenStep c = 0 ∧ sep.isPrefixOf (c :: s) then piece :: cutTopLevel sep (sep.length - 1) 0 [] s
    else cutTopLevel sep 0 (depth + parenStep c) (piece ++ [c]) s

def splitTopLevel (sep s : Text) : List Text := ((cutTopLevel sep 0 0 [] s).map trim).filter fun part => part ≠ []

def splitTopLevelMultiply (expr : Text) : List Text := splitTopLevel " * ".toList expr

def splitTopLevelAnd (expr : Text) : List Text := splitTopLevel " && ".toList expr

/-! ## Reading -/

def timeFuncPat : Pattern TimeFunc := oneOf (TimeFunc.all.map fun f => (lit f.key).map fun _ => f)

/-- `\("([^"]+)"\)`. -/
def quoted : Pattern Text :=
  (lit ['(', '"']).andThen fun _ => (atLeastOne fun c => c != '"').andThen fun text => (lit ['"', ')']).map fun _ => text

def numeral : Pattern Text := atLeastOne isNumeral

/-- `f("z") >= a || f("z") < b`. -/
def timeRange : Pattern RequestCondition :=
  timeFuncPat.andThen fun f => quoted.andThen fun z => (lit " >= ".toList).andThen fun _ => numeral.andThen fun a =>
    (lit (" || ".toList ++ (f.key ++ (['(', '"'] ++ (z ++ "\") < ".toList))))).andThen fun _ => numeral.map fun b =>
      .time f z .range [] a b

def timeSingle : Pattern RequestCondition :=
  timeFuncPat.andThen fun f => quoted.andThen fun z => (lit [' ']).andThen fun _ =>
    (oneOf ([MatchMode.eq, .gte, .lt].map fun mode => (lit mode.op).map fun _ => mode)).andThen fun mode =>
      (lit [' ']).andThen fun _ => numeral.map fun v => .time f z mode v [] []

def tryParseTimeCondition (expr : Text) : Option RequestCondition :=
  match timeRange.execWhole expr with
  | some c => some c
  | none =>
    match ((lit ['(']).andThen fun _ => timeRange.andThen fun c => (lit [')']).map fun _ => c).execWhole expr with
    | some c => some c
    | none => timeSingle.execWhole expr

def headerExists : Pattern Text :=
  (lit "header".toList).andThen fun _ => quoted.andThen fun path => (lit " != \"\"".toList).map fun _ => path

def paramExists : Pattern Text :=
  (lit "param".toList).andThen fun _ => quoted.andThen fun path => (lit " != nil".toList).map fun _ => path

/-- `.`: no end of a line. -/
def isDot (c : Char) : Bool := c.toNat ∉ [0x0A, 0x0D, 0x2028, 0x2029]

/-- `"(?:[^"\\]|\\.)*"`. -/
def stringLiteral : Pattern Text :=
  captured ((lit ['"']).andThen fun _ =>
    (star (or ((one fun c => c != '"' && c != '\\').map fun _ => ())
      ((lit ['\\']).andThen fun _ => (one isDot).map fun _ => ()))).andThen fun _ => lit ['"'])

def headerContains : Pattern (Text × Text) :=
  (lit "has(header".toList).andThen fun _ => quoted.andThen fun path => (lit ", ".toList).andThen fun _ =>
    stringLiteral.andThen fun literal => (lit [')']).map fun _ => (path, literal)

def paramContains : Pattern (Text × Text × Text) :=
  (lit "param".toList).andThen fun _ => quoted.andThen fun path => (lit " != nil && has(param".toList).andThen fun _ =>
    quoted.andThen fun path' => (lit ", ".toList).andThen fun _ => stringLiteral.andThen fun literal =>
      (lit [')']).map fun _ => (path, path', literal)

def paramCompare : Pattern (Text × Text × MatchMode × Text) :=
  (lit "param".toList).andThen fun _ => quoted.andThen fun path => (lit " != nil && param".toList).andThen fun _ =>
    quoted.andThen fun path' => (lit [' ']).andThen fun _ =>
      (oneOf ([MatchMode.gt, .gte, .lt, .lte].map fun mode => (lit mode.op).map fun _ => mode)).andThen fun mode =>
        (lit [' ']).andThen fun _ => numeral.map fun value => (path, path', mode, value)

def equality : Pattern (RequestSource × Text × Text) :=
  (oneOf ([RequestSource.param, .header].map fun source => (lit source.key).map fun _ => source)).andThen fun source =>
    quoted.andThen fun path => (lit " == ".toList).andThen fun _ => (atLeastOne isDot).map fun raw => (source, path, raw)

section

variable (structured : Structured)

/-- `JSON.parse` of a literal that a regular expression has found; it may throw. -/
def contained (source : RequestSource) (path literal : Text) : Except Unit (Option RequestCondition) :=
  match jsonParseString literal with
  | some value => .ok (some (.paramHeader source path .contains value))
  | none => .error ()

/-- The last regular expression, for an equality. -/
def tryParseEquality (expr : Text) : Option RequestCondition :=
  (equality.execWhole expr).bind fun m => (parseExprLiteral structured m.2.2).map fun value =>
    .paramHeader m.1 m.2.1 .eq value

/-- The two regular expressions for a parameter that is asked for first. -/
def tryParseParamCondition (expr : Text) : Except Unit (Option RequestCondition) :=
  match (paramContains.execWhole expr).filter fun m => m.1 = m.2.1 with
  | some m => contained .param m.1 m.2.2
  | none =>
    match (paramCompare.execWhole expr).filter fun m => m.1 = m.2.1 with
    | some m => .ok (some (.paramHeader .param m.1 m.2.2.1 m.2.2.2))
    | none => .ok (tryParseEquality structured expr)

def tryParseRequestCondition (expr : Text) : Except Unit (Option RequestCondition) :=
  match tryParseTimeCondition expr with
  | some c => .ok (some c)
  | none =>
    match headerExists.execWhole expr with
    | some path => .ok (some (.paramHeader .header path .exist []))
    | none =>
      match paramExists.execWhole expr with
      | some path => .ok (some (.paramHeader .param path .exist []))
      | none =>
        match headerContains.execWhole expr with
        | some m => contained .header m.1 m.2
        | none => tryParseParamCondition structured expr

/-- Reading the parts one after the other, until one is not read. -/
def readParts {α : Type} (read : Text → Except Unit (Option α)) : List Text → Except Unit (Option (List α))
  | [] => .ok (some [])
  | part :: parts =>
    match read part with
    | .error e => .error e
    | .ok none => .ok none
    | .ok (some a) =>
      match readParts read parts with
      | .error e => .error e
      | .ok none => .ok none
      | .ok (some as) => .ok (some (a :: as))

def tryParseRequestConditions (conditionStr : Text) : Except Unit (Option (List RequestCondition)) :=
  match readParts (fun part => tryParseRequestCondition structured (trim part)) (splitTopLevelAnd conditionStr) with
  | .ok (some []) => .ok none
  | r => r

/-- `^\((.+) \? ([\d.eE+-]+) : 1\)$` with the flag `s`. -/
def ruleFactor : Pattern (Text × Text) :=
  (lit ['(']).andThen fun _ => (atLeastOne fun _ => true).andThen fun conditions => (lit " ? ".toList).andThen fun _ =>
    numeral.andThen fun multiplier => (lit " : 1)".toList).map fun _ => (conditions, multiplier)

def tryParseRuleGroupFactor (part : Text) : Except Unit (Option RequestRuleGroup) :=
  match ruleFactor.execWhole part with
  | none => .ok none
  | some m =>
    match tryParseRequestConditions structured m.1 with
    | .error e => .error e
    | .ok none => .ok none
    | .ok (some conditions) => .ok (some ⟨conditions, m.2⟩)

def tryParseRequestRuleExpr (expr : Text) : Except Unit (Option (List RequestRuleGroup)) :=
  if trim expr = [] then .ok (some [])
  else readParts (tryParseRuleGroupFactor structured) (splitTopLevelMultiply (trim expr))

end

end NovaMaas.Pricing
