import StaticConfig.Constraint.Defaults
import StaticConfig.Eval.Constant
import StaticConfig.Value.Convert

/-!
Type constraints: expressions such as `list(object({ name = string }))` that stand for types. An
attribute of an object type may be optional and have a default value.
-/
namespace StaticConfig

/-- A type with the defaults of its optional attributes. -/
structure Constraint where
  ty : Ty
  defaults : Option Defaults
  deriving Inhabited

namespace Constraint

def invalid (detail : String) (e : Expr) : Diagnostic :=
  .errorAt .decode "Invalid type specification" detail e.span

/-- Any type, with a diagnostic. -/
def refuse (detail : String) (e : Expr) : Report Ty :=
  ⟨.dynamic, [invalid detail e]⟩

def elementDetail (name : String) : String :=
  "The " ++ name ++ " type constructor requires one argument specifying the element type."

def objectDetail : String :=
  "The object type constructor requires one argument specifying the attribute types as a map."

def tupleDetail : String :=
  "The tuple type constructor requires one argument specifying the element types as a list."

def formDetail : String :=
  "A type specification is either a primitive type keyword (bool, number, string) or a complex"
    ++ " type constructor call, like list(string)."

def keyDetail : String := "Object constructor map keys must be attribute names."

def optionalDetail : String :=
  "Optional attribute modifier requires the attribute type as its first argument and an optional"
    ++ " default value as its second."

def modifierDetail : String :=
  "Keyword \"optional\" is valid only as a modifier for object type attributes."

/-- The type that a single name stands for. -/
def ofKeyword (name : String) (e : Expr) : Report Ty :=
  if name = "string" then pure .string
  else if name = "number" then pure .number
  else if name = "bool" then pure .bool
  else if name = "any" then pure .dynamic
  else if name = "list" ∨ name = "map" ∨ name = "set" then refuse (elementDetail name) e
  else if name = "object" then refuse objectDetail e
  else if name = "tuple" then refuse tupleDetail e
  else refuse ("The keyword " ++ Text.inspect name ++ " is not a valid type specification.") e

/-- The name of an attribute, if the key is a constant. -/
def keyName? : ObjectKey → Option String
  | .name _ s => some s
  | .expr e =>
    match e with
    | .literal _ v => v.string?
    | .template _ parts => Expr.templateText? parts
    | e => e.keyword?

/-- The constructor of collection types of the given name. -/
def collection? (name : String) : Option (Ty → Ty) :=
  if name = "list" then some .list
  else if name = "set" then some .set
  else if name = "map" then some .map
  else none

/-- The type of a single name, and otherwise `other`. -/
def keywordOr (e : Expr) (other : Report Ty) : Report Ty :=
  match e.keyword? with
  | some name => ofKeyword name e
  | none => other

mutual

/-- The type that an expression stands for, or any type where it stands for none. -/
def typeOf : Expr → Report Ty
  | .call span name args expand => typeOfCall (.call span name args expand) name args
  | .parens span inner => keywordOr (.parens span inner) (typeOf inner)
  | e => keywordOr e (refuse formDetail e)

/-- The type that a call of a type constructor stands for. -/
def typeOfCall (e : Expr) (name : String) (args : List Expr) : Report Ty :=
  match collection? name with
  | some make =>
    match args with
    | [arg] => do
      let elem ← typeOf arg
      pure (make elem)
    | _ => refuse (elementDetail name) e
  | none =>
    if name = "tuple" then
      match args with
      | [.tuple _ items] => do
        let types ← typesOf items
        pure (.tuple types)
      | _ => refuse tupleDetail e
    else if name = "object" then
      match args with
      | [.object _ items] => do
        let (attrs, optional) ← attrsOf [] [] items
        pure (.object attrs optional)
      | _ => refuse objectDetail e
    else if name = "optional" then refuse modifierDetail e
    else refuse ("Keyword " ++ Text.inspect name ++ " is not a valid type constructor.") e

def typesOf : List Expr → Report (List Ty)
  | [] => pure []
  | e :: es => do
    let t ← typeOf e
    let ts ← typesOf es
    pure (t :: ts)

/-- The attributes of an object type added to `attrs`, and those that are optional. -/
def attrsOf (attrs : Fields Ty) (optional : Names) :
    List (ObjectKey × Expr) → Report (Fields Ty × Names)
  | [] => pure (attrs, optional)
  | (key, value) :: items =>
    match keyName? key with
    | none => do
      Report.tell [invalid keyDetail value]
      attrsOf attrs optional items
    | some name => do
      match ← attrOf value with
      | some (ty, isOptional) =>
        attrsOf (Fields.insert name ty attrs)
          (if isOptional then Names.insert name optional else optional) items
      | none => attrsOf attrs optional items

/-- The type of an attribute, and whether it is optional. -/
def attrOf : Expr → Report (Option (Ty × Bool))
  | .call span name args expand =>
    if name = "optional" then
      match args with
      | [arg] => do
        let ty ← typeOf arg
        pure (some (ty, true))
      | [arg, _] => do
        let ty ← typeOf arg
        pure (some (ty, true))
      | _ => ⟨none, [invalid optionalDetail (.call span name args expand)]⟩
    else do
      let ty ← typeOfCall (.call span name args expand) name args
      pure (some (ty, false))
  | .parens span inner => do
    let ty ← keywordOr (.parens span inner) (typeOf inner)
    pure (some (ty, false))
  | e => do
    let ty ← keywordOr e (refuse formDetail e)
    pure (some (ty, false))

end

def wrongDefault (e : ConversionError) (span : Span) : Diagnostic :=
  .errorAt .decode "Invalid default value for optional attribute"
    ("This default value is not compatible with the attribute's type constraint: " ++ e.message
      ++ ".") span

/-- The default value of an attribute added to `defaults`, if it has the attribute's type. -/
def addDefault (library : Library) (name : String) (ty : Ty) (e : Expr)
    (defaults : Fields Value) : Report (Fields Value) := do
  let v ← Eval.constant library e
  match v.convert ty with
  | .ok v => pure (defaults.insert name v)
  | .error err => ⟨defaults, [wrongDefault err e.span]⟩

def nonEmpty? (d : Defaults) : Option Defaults :=
  if d.defaults.isEmpty && d.children.isEmpty then none else some d

def addChild (key : String) (d : Option Defaults) (children : Fields Defaults) :
    Fields Defaults :=
  match d with
  | some d => children.insert key d
  | none => children

mutual

/-- The defaults that a constraint gives for its type. -/
def defaultsOf (library : Library) : Expr → Ty → Report (Option Defaults)
  | .parens _ inner, ty => defaultsOf library inner ty
  | .call _ name args _, ty => defaultsOfCall library name args ty
  | _, _ => pure none

def defaultsOfCall (library : Library) (name : String) (args : List Expr) (ty : Ty) :
    Report (Option Defaults) :=
  match (collection? name).bind fun _ => ty.elementType? with
  | some elem =>
    match args with
    | arg :: _ => do
      let d ← defaultsOf library arg elem
      pure (nonEmpty? ⟨ty, [], addChild Defaults.elementKey d []⟩)
    | [] => pure none
  | none =>
    if name = "tuple" then
      match args, ty with
      | .tuple _ items :: _, .tuple types => do
        let children ← tupleDefaults library 0 [] items types
        pure (nonEmpty? ⟨ty, [], children⟩)
      | _, _ => pure none
    else if name = "object" then
      match args, ty with
      | .object _ items :: _, .object attrs _ => do
        let (defaults, children) ← objectDefaults library attrs [] [] items
        pure (nonEmpty? ⟨ty, defaults, children⟩)
      | _, _ => pure none
    else pure none

def tupleDefaults (library : Library) (index : Nat) (children : Fields Defaults) :
    List Expr → List Ty → Report (Fields Defaults)
  | e :: es, t :: ts => do
    let d ← defaultsOf library e t
    tupleDefaults library (index + 1) (addChild (toString index) d children) es ts
  | _, _ => pure children

def objectDefaults (library : Library) (attrs : Fields Ty) (defaults : Fields Value)
    (children : Fields Defaults) :
    List (ObjectKey × Expr) → Report (Fields Value × Fields Defaults)
  | [] => pure (defaults, children)
  | (key, value) :: items =>
    match (keyName? key).bind fun name => (attrs.get? name).map fun ty => (name, ty) with
    | none => objectDefaults library attrs defaults children items
    | some (name, ty) => do
      let (defaults, d) ← attrDefaults library name ty defaults value
      objectDefaults library attrs defaults (addChild name d children) items

/-- The default of an attribute added to `defaults`, and the defaults inside it. -/
def attrDefaults (library : Library) (name : String) (ty : Ty) (defaults : Fields Value) :
    Expr → Report (Fields Value × Option Defaults)
  | .call _ called args _ =>
    if called = "optional" then
      match args with
      | [] => pure (defaults, none)
      | [arg] => do
        let d ← defaultsOf library arg ty
        pure (defaults, d)
      | arg :: e :: _ => do
        let defaults ← addDefault library name ty e defaults
        let d ← defaultsOf library arg ty
        pure (defaults, d)
    else do
      let d ← defaultsOfCall library called args ty
      pure (defaults, d)
  | .parens _ inner => do
    let d ← defaultsOf library inner ty
    pure (defaults, d)
  | _ => pure (defaults, none)

end

/-- The constraint that an expression stands for. -/
def ofExpr (library : Library) (e : Expr) : Report Constraint := do
  let ty ← typeOf e
  let defaults ← defaultsOf library e ty
  pure ⟨ty, defaults⟩

end Constraint

end StaticConfig
