import StaticConfig.Value.Basic

/-!
JSON documents, and what values have in common with them. The members of an object stand in the
order of the text, and a name may occur more than once; the last member of a name counts.
-/
namespace StaticConfig

inductive Json where
  | null
  | bool (b : Bool)
  | number (n : Number)
  | string (s : String)
  | array (items : List Json)
  | object (members : List (String × Json))
  deriving Inhabited

namespace Json

def ofFloat (f : Float) : Json :=
  if Double.isFinite f then number (.float f) else null

mutual

/-- The value of a document. Arrays become tuples, and a whole double becomes exact. -/
def toValue : Json → Value
  | null => .nothing
  | bool b => .bool b
  | number (.int n) => .number (.int n)
  | number (.float f) => .number (Number.ofFloat f)
  | string s => .string s
  | array items => .tuple (toValues items)
  | object members => .object (Fields.ofList (toFields members))

def toValues : List Json → List Value
  | [] => []
  | j :: js => j.toValue :: toValues js

def toFields : List (String × Json) → List (String × Value)
  | [] => []
  | (k, j) :: rest => (k, j.toValue) :: toFields rest

end

mutual

/-- The document of a value, marks left out. There is none for unknown values. -/
def ofValue? : Value → Option Json
  | .null _ => some null
  | .unknown _ => none
  | .bool b => some (bool b)
  | .number (.int n) => some (number (.int n))
  | .number (.float f) => some (ofFloat f)
  | .string s => some (string s)
  | .list _ items => (ofValues? items).map array
  | .set _ items => (ofValues? items).map array
  | .tuple items => (ofValues? items).map array
  | .map _ entries => (ofFields? entries).map object
  | .object attrs => (ofFields? attrs).map object
  | .sensitive v => ofValue? v

def ofValues? : List Value → Option (List Json)
  | [] => some []
  | v :: vs =>
    match ofValue? v, ofValues? vs with
    | some j, some js => some (j :: js)
    | _, _ => none

def ofFields? : List (String × Value) → Option (List (String × Json))
  | [] => some []
  | (k, v) :: more =>
    match ofValue? v, ofFields? more with
    | some j, some rest => some ((k, j) :: rest)
    | _, _ => none

end

end Json

end StaticConfig
