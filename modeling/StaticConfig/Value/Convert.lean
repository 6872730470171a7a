import StaticConfig.Text.Inspect
import StaticConfig.Ty.Unify
import StaticConfig.Value.Marks

/-!
Conversion of values to a wanted type. Primitive types convert to each other where the value
permits it, sequences to lists, sets and tuples, and maps and objects to each other. Null and
unknown values become null and unknown values of the wanted type. Marks stay where they are.
-/
namespace StaticConfig

/-- A step towards the part of a value that does not convert. -/
inductive ConversionStep where
  | element (index : Nat)
  | entry (key : String)
  | attr (name : String)
  deriving DecidableEq

namespace ConversionStep

def text : ConversionStep → String
  | element index => "element " ++ toString index
  | entry key => "element " ++ Text.inspect key
  | attr name => "attribute " ++ Text.inspect name

end ConversionStep

inductive ConversionFault where
  | required (ty : Ty)
  | notBool
  | notNumber
  | mixedElements
  | mixedEntries
  | tupleLength (length : Nat)
  | missingAttribute (name : String)
  deriving DecidableEq

namespace ConversionFault

def text : ConversionFault → String
  | required ty => ty.name ++ " required"
  | notBool => "a bool is required"
  | notNumber => NumberError.message .unreadable
  | mixedElements => "all elements must have the same type"
  | mixedEntries => "all map elements must have the same type"
  | tupleLength length => "tuple required with exactly " ++ toString length ++ " elements"
  | missingAttribute name => "attribute " ++ Text.inspect name ++ " is required"

end ConversionFault

/-- Why a value does not convert, and at which part, outermost step first. -/
structure ConversionError where
  path : List ConversionStep
  fault : ConversionFault
  deriving DecidableEq

namespace ConversionError

def ofFault (fault : ConversionFault) : ConversionError := ⟨[], fault⟩

def within (step : ConversionStep) (e : ConversionError) : ConversionError :=
  { e with path := step :: e.path }

def message (e : ConversionError) : String :=
  String.join (e.path.map fun step => step.text ++ ": ") ++ e.fault.text

end ConversionError

/-- Some value of the first type may convert to the second. -/
def Ty.mayConvert (source want : Ty) : Bool :=
  source == .dynamic || want == .dynamic
    || (source.isPrimitive && want.isPrimitive)
    || (source.isSequence && want.isSequence)
    || (source.isMapping && want.isMapping)

namespace Value

/-- A primitive value converted to another type. -/
def convertPrimitive (v : Value) (want : Ty) : Except ConversionError Value :=
  let required : Except ConversionError Value := .error (.ofFault (.required want))
  match want, v with
  | .dynamic, v => .ok v
  | .bool, bool b => .ok (bool b)
  | .bool, string s =>
    if s = "true" then .ok (bool true)
    else if s = "false" then .ok (bool false)
    else .error (.ofFault .notBool)
  | .number, number n => .ok (number n)
  | .number, string s =>
    match Number.read s with
    | .ok n => .ok (number n)
    | .error _ => .error (.ofFault .notNumber)
  | .string, string s => .ok (string s)
  | .string, number n => .ok (string n.text)
  | .string, bool b => .ok (string (if b then "true" else "false"))
  | _, _ => required

/-- The element type to convert to: the wanted one, or what the types found have in common. -/
def elementTarget (fault : ConversionFault) (want : Ty) (found : List Ty) :
    Except ConversionError Ty :=
  if want.hasDynamic then
    match Ty.unify found with
    | some t => .ok t
    | none => .error (.ofFault fault)
  else .ok want

/-- The attributes that an object type asks for, from the converted parts of a value. -/
def collectAttrs (converted : Fields (Except ConversionError Value)) (optional : Names) :
    List (String × Ty) → Except ConversionError (Fields Value)
  | [] => .ok []
  | (name, ty) :: rest =>
    match Fields.get? name converted with
    | some (.ok v) => (collectAttrs converted optional rest).map fun more => (name, v) :: more
    | some (.error e) => .error (e.within (.attr name))
    | none =>
      if optional.contains name then
        (collectAttrs converted optional rest).map fun more => (name, null ty) :: more
      else .error (.ofFault (.missingAttribute name))

/-- A list, set or tuple converted to another type, given how its items convert to one type and
to a type each. Only an `ordered` sequence becomes a tuple. -/
def sequenceTo (v : Value) (items : List Value) (ordered : Bool)
    (all : Ty → Except ConversionError (List Value))
    (each : List Ty → Except ConversionError (List Value)) :
    Ty → Except ConversionError Value
  | .dynamic => .ok v
  | .list e => do
    let e ← elementTarget .mixedElements e (types items)
    (all e).map (list e)
  | .set e => do
    let e ← elementTarget .mixedElements e (types items)
    (all e).map (setOf e)
  | .tuple elems =>
    if !ordered then .error (.ofFault (.required (.tuple elems)))
    else if items.length = elems.length then (each elems).map tuple
    else .error (.ofFault (.tupleLength elems.length))
  | want => .error (.ofFault (.required want))

/-- A map or object converted to another type, given how its entries convert to one type and
those of some attributes to the attributes' types. -/
def mappingTo (v : Value) (entries : Fields Value)
    (all : Ty → Except ConversionError (Fields Value))
    (named : List (String × Ty) → Fields (Except ConversionError Value)) :
    Ty → Except ConversionError Value
  | .dynamic => .ok v
  | .map e => do
    let e ← elementTarget .mixedEntries e (Fields.values (fieldTypes entries))
    (all e).map (map e)
  | .object attrs optional => (collectAttrs (named attrs) optional attrs).map object
  | want => .error (.ofFault (.required want))

mutual

/-- The value converted to the wanted type. -/
def convert (v : Value) (want : Ty) : Except ConversionError Value :=
  match v with
  | sensitive inner => (convert inner want).map mark
  | null t => .ok (null (if want == .dynamic then t else want))
  | unknown t =>
    if want == .dynamic then .ok (unknown t)
    else if t.mayConvert want then .ok (unknown want)
    else .error (.ofFault (.required want))
  | bool b => convertPrimitive (bool b) want
  | number n => convertPrimitive (number n) want
  | string s => convertPrimitive (string s) want
  | list t items =>
    sequenceTo (list t items) items true (fun e => convertItems 0 items e)
      (fun es => convertEach 0 items es) want
  | set t items =>
    sequenceTo (set t items) items false (fun e => convertItems 0 items e)
      (fun es => convertEach 0 items es) want
  | tuple items =>
    sequenceTo (tuple items) items true (fun e => convertItems 0 items e)
      (fun es => convertEach 0 items es) want
  | map t entries =>
    mappingTo (map t entries) entries (fun e => convertEntries entries e)
      (fun attrs => convertAttrs entries attrs) want
  | object attrs =>
    mappingTo (object attrs) attrs (fun e => convertEntries attrs e)
      (fun wanted => convertAttrs attrs wanted) want

/-- Items converted to one type. The first index is `start`. -/
def convertItems (start : Nat) (items : List Value) (want : Ty) :
    Except ConversionError (List Value) :=
  match items with
  | [] => .ok []
  | v :: vs =>
    match convert v want with
    | .error e => .error (e.within (.element start))
    | .ok v => (convertItems (start + 1) vs want).map (v :: ·)

/-- Items converted to a type each. -/
def convertEach (start : Nat) (items : List Value) (wants : List Ty) :
    Except ConversionError (List Value) :=
  match items, wants with
  | v :: vs, t :: ts =>
    match convert v t with
    | .error e => .error (e.within (.element start))
    | .ok v => (convertEach (start + 1) vs ts).map (v :: ·)
  | _, _ => .ok []

def convertEntries (entries : List (String × Value)) (want : Ty) :
    Except ConversionError (Fields Value) :=
  match entries with
  | [] => .ok []
  | (k, v) :: rest =>
    match convert v want with
    | .error e => .error (e.within (.entry k))
    | .ok v => (convertEntries rest want).map ((k, v) :: ·)

/-- The entries that name one of the attributes, each converted to that attribute's type. -/
def convertAttrs (entries : List (String × Value)) (attrs : List (String × Ty)) :
    Fields (Except ConversionError Value) :=
  match entries with
  | [] => []
  | (k, v) :: rest =>
    match Fields.get? k attrs with
    | some t => (k, convert v t) :: convertAttrs rest attrs
    | none => convertAttrs rest attrs

end

/-- The value converted, if it converts. -/
def convert? (v : Value) (want : Ty) : Option Value :=
  (convert v want).toOption

end Value

end StaticConfig
