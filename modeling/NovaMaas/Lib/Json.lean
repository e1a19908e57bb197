/-
  JSON values, as Go reads them into `any`.

  An object is its fields; a field that is not there reads as null.  What the standard library makes of a value as text
  (`json.Marshal`, and `fmt` for a list or an object) is a parameter, `JsonText`.
-/
import NovaMaas.Lib.Text

namespace NovaMaas

inductive Json where
  | null
  | bool (b : Bool)
  /-- A number, as `strconv.FormatFloat` writes it. -/
  | num (text : String)
  | str (s : String)
  | arr (items : List Json)
  | obj (fields : List (String × Json))

/-- `map[string]any`. -/
abbrev JsonObject := List (String × Json)

/-- Texts of values. -/
structure JsonText where
  marshal : Json → String
  /-- `fmt.Sprintf("%v", …)`. -/
  sprint  : Json → String

namespace Json

/-- The value under a key. -/
def get (fields : JsonObject) (key : String) : Json := (fields.lookup key).getD .null

/-- A value that is a string. -/
def str? : Json → Option String
  | str s => some s
  | _ => none

/-- A value that is an object. -/
def obj? : Json → Option JsonObject
  | obj fields => some fields
  | _ => none

/-- The name of the kind, as an error of the JSON package says it. -/
def kind : Json → String
  | null => "null"
  | bool _ => "bool"
  | num _ => "number"
  | str _ => "string"
  | arr _ => "array"
  | obj _ => "object"

/-- `kitutil.GetJsonType`. -/
def jsonType : Json → String
  | null => "null"
  | bool _ => "boolean"
  | num _ => "number"
  | str _ => "string"
  | arr _ => "array"
  | obj _ => "object"

/-- `kitutil.Interface2String`. -/
def interface2String (texts : JsonText) : Json → String
  | null => ""
  | bool b => if b then "true" else "false"
  | num text => text
  | str s => s
  | v => texts.sprint v

/-- A value that is read into a map: null is the empty one. -/
def toObject : Json → Except String JsonObject
  | null => .ok []
  | obj fields => .ok fields
  | v => .error ("json: cannot unmarshal " ++ v.kind ++ " into Go value of type map[string]interface \x7b\x7d")

end Json

end NovaMaas
