/-
  Parameter overrides at paths with wildcards (relay/common/override.go).

  An operation whose path has a `*` is first expanded: `collectWildcardPaths` walks the document and writes down the
  text of every path that matches.  The texts are then worked off one after another, each against the document that the
  ones before it have left, and each text is read again as a path, by the rules of gjson and sjson.

  What is wanted is told on the document: `editMatched` changes, and `deleteMatched` takes out, what stands at the
  matched places, all at once.

  gjson and sjson are parameters; on plain paths they read, set and delete by the parts of the path (`Sjson.Plain`).
-/
import NovaMaas.Override.NegativeIndex

namespace NovaMaas.Override

open Json

/-! ## gjson and sjson -/

structure Sjson where
  gjson       : Gjson Json
  setBytes    : Json → List Char → Json → Except String Json
  deleteBytes : Json → List Char → Except String Json

/-- Characters that the path syntax gives a meaning to, anywhere or at the beginning of a part. -/
def specialChar (c : Char) : Bool := c ∈ ['.', '*', '?', '\\', '|', '#', '@']

def specialHead (c : Char) : Bool := c ∈ [':', '!', '\x7b', '[']

/-- A part that stands for itself in a path. -/
def plainPart (part : String) : Bool :=
  trimSpace part ≠ "" && part.toList.all (fun c => !specialChar c) && !part.toList.head?.any specialHead

/-- The parts of a path that has plain parts only. -/
def plainPath (path : List Char) : Option (List String) :=
  let parts := (splitList '.' path).map String.ofList
  if parts.all plainPart then some parts else none

/-- On plain paths the libraries follow the parts. -/
structure Sjson.Plain (t : Sjson) : Prop where
  get    : ∀ {path parts}, plainPath path = some parts → ∀ d, t.gjson.getBytes d path = at? d parts
  set    : ∀ {path parts}, plainPath path = some parts → ∀ d v d', t.setBytes d path v = .ok d' ↔ set? d parts v = some d'
  delete : ∀ {path parts}, plainPath path = some parts → ∀ d, t.deleteBytes d path = .ok (delete d parts)

/-- Libraries that know plain paths only. -/
def plainSjson : Sjson where
  gjson :=
    { getBytes := fun data path => (plainPath path).bind (at? data)
      array := plainGjson.array }
  setBytes data path v :=
    match (plainPath path).bind fun parts => set? data parts v with
    | some data' => .ok data'
    | none => .error "cannot set"
  deleteBytes data path :=
    match plainPath path with
    | some parts => .ok (delete data parts)
    | none => .error "cannot delete"

theorem plainSjson_plain : plainSjson.Plain := by
  refine ⟨fun {path parts} h d => ?_, fun {path parts} h d v d' => ?_, fun {path parts} h d => ?_⟩
  · show (plainPath path).bind (at? d) = at? d parts
    rw [h]
    rfl
  · unfold plainSjson
    simp only [h, Option.bind_some]
    cases set? d parts v <;> simp
  · unfold plainSjson
    simp only [h]

/-! ## Expanding a path -/

/-- The text of an index. -/
def indexPart (n : ℕ) : String := String.ofList (itoa n)

/-- `sort.Strings(lo.Keys(typed))`. -/
def sortedKeys (fields : JsonObject) : List String := ((fields.map Prod.fst).dedup).insertionSort fun a b => a ≤ b

/-- The value of a key in the map that `Unmarshal` makes: the last one. -/
def goField (fields : JsonObject) (key : String) : Option Json := fields.reverse.lookup key

/-- The index a literal segment names in an array. -/
def literalIndex (segment : String) (items : List Json) : Option ℕ :=
  match parseInt segment with
  | none => none
  | some i => if i < 0 ∨ i ≥ items.length then none else some i.toNat

def pathText (parts : List String) : List Char := joinPath (parts.map String.toList)

/-- `collectWildcardPaths`. -/
def collectWildcardPaths : List String → Json → List String → List (List Char)
  | [], _, reached => [pathText reached]
  | raw :: segments, node, reached =>
    let segment := trimSpace raw
    if segment = "" then []
    else if segment = "*" then
      match node with
      | obj fields => (sortedKeys fields).flatMap fun key =>
          collectWildcardPaths segments ((goField fields key).getD null) (reached ++ [key])
      | arr items => (List.range items.length).flatMap fun i =>
          collectWildcardPaths segments (items[i]?.getD null) (reached ++ [indexPart i])
      | _ => []
    else
      match node with
      | obj fields =>
        if segments = [] then [pathText (reached ++ [segment])]
        else
          match goField fields segment with
          | none => []
          | some next => collectWildcardPaths segments next (reached ++ [segment])
      | arr items =>
        match literalIndex segment items with
        | none => []
        | some i =>
          if segments = [] then [pathText (reached ++ [segment])]
          else collectWildcardPaths segments (items[i]?.getD null) (reached ++ [segment])
      | _ => []

/-- `lo.Uniq`. -/
def uniq {α : Type} [DecidableEq α] (l : List α) : List α :=
  l.foldl (fun seen a => if a ∈ seen then seen else seen ++ [a]) []

/-- `strings.Split(path, ".")`. -/
def pathSegments (path : List Char) : List String := (splitList '.' path).map String.ofList

theorem pathSegments_ne (path : List Char) : pathSegments path ≠ [] := by
  have hsplit : ∃ s ts, splitList '.' path = s :: ts ∧ _ := joined_of_split path
  obtain ⟨first, rest, hsplit, -⟩ := hsplit
  unfold pathSegments
  rw [hsplit]
  exact List.cons_ne_nil _ _

/-- `resolveOperationPaths`. -/
def resolveOperationPaths (data : Json) (path : List Char) : List (List Char) :=
  if '*' ∈ path then uniq (collectWildcardPaths (pathSegments path) data []) else [path]

/-! ## The modes -/

/-- What the modes need of Go: a value as gjson returns it and sjson writes it, its text, letter case, regular
expressions, and `pruneObjects` with its options. -/
structure OverrideTools where
  value        : Json → Json
  sprint       : Json → String
  toLower      : String → String
  toUpper      : String → String
  replaceAll   : String → String → String → String
  regexReplace : String → String → String → Except String String
  prune        : Json → Except String (Json → Except String Json)

inductive EditMode
  | set
  | prepend
  | append
  | trimPrefix
  | trimSuffix
  | ensurePrefix
  | ensureSuffix
  | trimSpace
  | toLower
  | toUpper
  | replace
  | regexReplace
  | pruneObjects

/-- The modes that `isPathBasedOperation` knows. -/
inductive PathMode
  | delete
  | edit (mode : EditMode)

structure ParamOperation where
  mode       : PathMode
  path       : List Char
  value      : Json := .null
  keepOrigin : Bool := false
  from'      : String := ""
  to'        : String := ""
  /-- `checkConditions`. -/
  conditions : Json → Except String Bool := fun _ => .ok true

/-- What is written at a place where `current` stands; `none` leaves the document as it is. -/
abbrev Edit := Option Json → Except String (Option Json)

def unsupported : Except String (Option Json) := .error "operation not supported"

/-- An edit of a string. -/
def stringEdit (f : String → Except String (Option String)) : Edit
  | some (str s) => (f s).map (Option.map str)
  | _ => unsupported

/-- The new fields in the old ones; with `keepOrigin` only where there is no value. -/
def mergeFields (keepOrigin : Bool) (fields new : JsonObject) : JsonObject :=
  new.foldl (fun fields field =>
    match keepOrigin, (fields.lookup field.1).getD null with
    | false, _ | true, .null => putField field.1 field.2 fields
    | true, _ => fields) fields

/-- `modifyValue`, with `modifyArray`, `modifyString` and `mergeObjects`.  A slice that nothing was appended to is nil, and
written as null. -/
def modifyValue (tools : OverrideTools) (value : Json) (keepOrigin isPrepend : Bool) : Edit
  | some (arr items) =>
    let added := match value with
      | arr values => values
      | v => [v]
    let original := items.map tools.value
    let newArray := if isPrepend then added ++ original else original ++ added
    .ok (some (if newArray.isEmpty then null else arr newArray))
  | some (str s) => .ok (some (str (if isPrepend then tools.sprint value ++ s else s ++ tools.sprint value)))
  | some (obj fields) =>
    match value with
    | obj new => .ok (some (tools.value (obj (mergeFields keepOrigin fields new))))
    | .null => .ok (some (tools.value (obj fields)))
    | _ => .error "cannot unmarshal into an object"
  | _ => unsupported

def ensureStringAffix (tools : OverrideTools) (value : Json) (has : String → String → Bool)
    (join : String → String → String) : Edit :=
  stringEdit fun s =>
    match value with
    | .null => .error "ensure value is required"
    | value =>
      if tools.sprint value = "" then .error "ensure value is required"
      else if has s (tools.sprint value) then .ok none
      else .ok (some (join s (tools.sprint value)))

def trimStringValue (tools : OverrideTools) (value : Json) (trim : String → String → String) : Edit :=
  stringEdit fun s =>
    match value with
    | .null => .error "trim value is required"
    | value => .ok (some (trim s (tools.sprint value)))

/-- The edit of a mode. -/
def editOf (tools : OverrideTools) (op : ParamOperation) : EditMode → Edit
  | .set => fun current => .ok (if op.keepOrigin && current.isSome then none else some op.value)
  | .prepend => modifyValue tools op.value op.keepOrigin true
  | .append => modifyValue tools op.value op.keepOrigin false
  | .trimPrefix => trimStringValue tools op.value NovaMaas.trimPrefix
  | .trimSuffix => trimStringValue tools op.value NovaMaas.trimSuffix
  | .ensurePrefix => ensureStringAffix tools op.value hasPrefix fun s affix => affix ++ s
  | .ensureSuffix => ensureStringAffix tools op.value hasSuffix fun s affix => s ++ affix
  | .trimSpace => stringEdit fun s => .ok (some (NovaMaas.trimSpace s))
  | .toLower => stringEdit fun s => .ok (some (tools.toLower s))
  | .toUpper => stringEdit fun s => .ok (some (tools.toUpper s))
  | .replace => stringEdit fun s =>
      if op.from' = "" then .error "replace from is required" else .ok (some (tools.replaceAll s op.from' op.to'))
  | .regexReplace => stringEdit fun s =>
      if op.from' = "" then .error "regex pattern is required" else (tools.regexReplace op.from' op.to' s).map some
  | .pruneObjects => fun current => do
      let pruned ← tools.prune op.value
      match current with
      | none => .ok none
      | some v => (pruned v).map some

/-! ## The operations -/

/-- `deleteValue`. -/
def deleteValue (t : Sjson) (data : Json) (path : List Char) : Except String Json :=
  if trimSpace (String.ofList path) = "" then .ok data else t.deleteBytes data path

/-- A path of an editing mode. -/
def editValue (t : Sjson) (f : Edit) (data : Json) (path : List Char) : Except String Json := do
  match ← f (t.gjson.getBytes data path) with
  | none => .ok data
  | some v => t.setBytes data path v

/-- An operation whose conditions are met. -/
def applyOperation (t : Sjson) (tools : OverrideTools) (data : Json) (op : ParamOperation) : Except String Json :=
  let opPaths := resolveOperationPaths data (processNegativeIndex t.gjson data op.path)
  match op.mode with
  | .delete => opPaths.foldlM (deleteValue t) data
  | .edit mode => opPaths.foldlM (editValue t (editOf tools op mode)) data

/-- `applyOperations`. -/
def applyOperations (t : Sjson) (tools : OverrideTools) (operations : List ParamOperation) (jsonData : Json) :
    Except String Json :=
  operations.foldlM (fun data op => do
    if ← op.conditions data then applyOperation t tools data op else .ok data) jsonData

/-! ## What is wanted -/

/-- A document with all its children changed. -/
def mapChildren (g : Json → Json) : Json → Json
  | obj fields => obj (fields.map fun field => (field.1, g field.2))
  | arr items => arr (items.map g)
  | d => d

/-- A document with the children changed that a segment matches. -/
def mapMatched (segment : String) (g : Json → Json) (d : Json) : Json :=
  if segment = "*" then mapChildren g d
  else
    match slot d segment with
    | none => d
    | some s => ((childAt d s).map fun c => putChild d s (g c)).getD d

/-- What an edit makes of a place. -/
def edited (f : Edit) (current : Option Json) : Option Json :=
  match f current with
  | .ok (some v) => some v
  | _ => current

/-- The object has no such field. -/
def absentField (segment : String) : Json → Bool
  | obj fields => segment ≠ "*" && (fields.lookup segment).isNone
  | _ => false

/-- Every matched place edited.  The last segment matches a field of an object also if it is not there. -/
def editMatched (f : Edit) : List String → Json → Json
  | [], d => (edited f (some d)).getD d
  | segment :: segments, d =>
    if segment = "" then d
    else if segments = [] ∧ absentField segment d = true then
      ((edited f none).map fun v => putChild d (.key segment) v).getD d
    else mapMatched segment (editMatched f segments) d

/-- What the last segment matches taken out. -/
def dropMatched (segment : String) (d : Json) : Json :=
  if segment = "" then d
  else if segment = "*" then
    match d with
    | obj _ => obj []
    | arr _ => arr []
    | d => d
  else
    match slot d segment with
    | none => d
    | some s => dropChild d s

/-- Every matched place deleted. -/
def deleteMatched : List String → Json → Json
  | [], d => d
  | [segment], d => dropMatched segment d
  | segment :: segments, d => if segment = "" then d else mapMatched segment (deleteMatched segments) d

/-! ## When it is what is wanted -/

/-- The children that a segment matches. -/
def matchedChildren (segment : String) (d : Json) : List Json :=
  if segment = "*" then
    match d with
    | obj fields => fields.map Prod.snd
    | arr items => items
    | _ => []
  else ((slot d segment).bind (childAt d)).toList

/-- What a segment meets can be written as a path: under `*` an object has no key twice, and its keys are plain; a
literal segment is plain, no key twice, and a number to sjson if it is one to `Atoi`. -/
def cleanStep (segment : String) : Json → Bool
  | obj fields =>
    if segment = "*" then decide (fields.map Prod.fst).Nodup && fields.all fun field => plainPart field.1
    else decide ((fields.map Prod.fst).count segment ≤ 1) && plainPart segment
  | arr items => segment = "*" || (plainPart segment && literalIndex segment items = (index? segment).filter (· < items.length))
  | _ => true

def Clean : List String → Json → Prop
  | [], _ => True
  | segment :: segments, d =>
    segment = "" ∨ (cleanStep segment d = true ∧ ∀ c ∈ matchedChildren segment d, Clean segments c)

/-- The edit has an answer at every matched place. -/
def EditsOk (f : Edit) : List String → Json → Prop
  | [], d => ∃ v, f (some d) = .ok v
  | segment :: segments, d =>
    segment = "" ∨
      ((segments = [] → absentField segment d = true → ∃ v, f none = .ok v) ∧
        ∀ c ∈ matchedChildren segment d, EditsOk f segments c)

/-- Every list that a last `*` meets has at most one element. -/
def SoleMatches : List String → Json → Prop
  | [], _ => True
  | [segment], d => segment = "*" → ∀ items, d = arr items → items.length ≤ 1
  | segment :: segments, d => segment = "" ∨ ∀ c ∈ matchedChildren segment d, SoleMatches segments c

end NovaMaas.Override
