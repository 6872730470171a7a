import StaticConfig.Builtin.Basic

/-!
What functions ask of their arguments. No argument that is looked at may be null.
-/
namespace StaticConfig.Builtin

def notNull (v : Value) : Except CallError Unit :=
  if v.isNull then .error .nullArgument else .ok ()

def converted (v : Value) (ty : Ty) : Except CallError Value :=
  match v.convert ty with
  | .ok v => .ok v
  | .error e => .error (.conversion e)

def asString (v : Value) : Except CallError String := do
  notNull v
  match (← converted v .string).string? with
  | some s => .ok s
  | none => .error (.required .string)

def asNumber (v : Value) : Except CallError Number := do
  notNull v
  match (← converted v .number).number? with
  | some n => .ok n
  | none => .error (.required .number)

def asWhole (v : Value) : Except CallError Int64 := do
  match (← asNumber v).toInt? with
  | some i => .ok i
  | none => .error .notWhole

def asBool (v : Value) : Except CallError Bool := do
  notNull v
  match (← converted v .bool).bool? with
  | some b => .ok b
  | none => .error (.required .bool)

def asSequence (v : Value) : Except CallError (List Value) := do
  notNull v
  match v.items? with
  | some items => .ok items
  | none => .error (.notSequence v.ty)

def asMapping (v : Value) : Except CallError (Fields Value) := do
  notNull v
  match v.entries? with
  | some entries => .ok entries
  | none => .error (.notMapping v.ty)

/-- The conversions of all the values, if each converts. -/
def convertedAll (want : Ty) (vs : List Value) : Option (List Value) :=
  vs.mapM fun v => v.convert? want

/-- A list of the items if they have a type in common, and a tuple otherwise. -/
def listOrTuple (items : List Value) : Value :=
  if items.isEmpty then .tuple []
  else match Ty.unify (Value.types items) with
    | some ty =>
      match convertedAll ty items with
      | some vs => .list ty vs
      | none => .tuple items
    | none => .tuple items

end StaticConfig.Builtin
