import StaticConfig.Builtin.Error
import StaticConfig.Diagnostic
import StaticConfig.Expr.Basic

/-!
Why an expression has no value, told as a summary and a detail.
-/
namespace StaticConfig

/-- Which operand of an operator is meant. -/
inductive Side where
  | sole
  | left
  | right
  deriving DecidableEq

namespace Side

def text : Side → String
  | sole => "unary"
  | left => "left"
  | right => "right"

end Side

inductive EvalFault where
  | unknownVariable (name : String)
  | nullAttribute
  | noAttribute (name : String)
  | noMapElement (name : String)
  | sequenceAttribute
  | primitiveAttribute (ty : Ty)
  | nullKey
  | noElement
  | nullIndexed
  | setIndexed
  | notIndexed
  | nullOperand (side : Side) (ty : Ty)
  | wrongOperand (side : Side) (e : ConversionError)
  | failedOperation (e : NumberError)
  | nullInterpolation
  | wrongInterpolation (e : ConversionError)
  | nullObjectKey
  | wrongObjectKey (e : ConversionError)
  | nullExpansion
  | wrongExpansion
  | unknownFunction (name : String)
  | failedCall (name : String) (e : CallError)
  | nullCondition
  | wrongCondition
  | mixedBranches (yes no : Ty)
  | nullIteration
  | notIterable (ty : Ty)
  | nullFilter
  | wrongFilter (e : ConversionError)
  | nullItemKey
  | wrongItemKey (e : ConversionError)
  | duplicateItemKey (key : String)
  deriving DecidableEq

namespace EvalFault

def summary : EvalFault → String
  | unknownVariable _ => "Unknown variable"
  | nullAttribute => "Attempt to get attribute from null value"
  | noAttribute _ | sequenceAttribute | primitiveAttribute _ => "Unsupported attribute"
  | noMapElement _ => "Missing map element"
  | nullKey | noElement | setIndexed | notIndexed => "Invalid index"
  | nullIndexed => "Attempt to index null value"
  | nullOperand _ _ | wrongOperand _ _ => "Invalid operand"
  | failedOperation _ => "Operation failed"
  | nullInterpolation | wrongInterpolation _ => "Invalid template interpolation value"
  | nullObjectKey => "Null value as key"
  | wrongObjectKey _ => "Incorrect key type"
  | nullExpansion | wrongExpansion => "Invalid expanding argument value"
  | unknownFunction _ => "Call to unknown function"
  | failedCall _ _ => "Error in function call"
  | nullCondition => "Null condition"
  | wrongCondition => "Incorrect condition type"
  | mixedBranches _ _ => "Inconsistent conditional result types"
  | nullIteration => "Iteration over null value"
  | notIterable _ => "Iteration over non-iterable value"
  | nullFilter => "Condition is null"
  | wrongFilter _ => "Invalid 'for' condition"
  | nullItemKey | wrongItemKey _ => "Invalid object key"
  | duplicateItemKey _ => "Duplicate object key"

def detail : EvalFault → String
  | unknownVariable name => "There is no variable named " ++ Text.inspect name ++ "."
  | nullAttribute => "This value is null, so it does not have any attributes."
  | noAttribute name =>
    "This object does not have an attribute named " ++ Text.inspect name ++ "."
  | noMapElement name =>
    "This map does not have an element with the key " ++ Text.inspect name ++ "."
  | sequenceAttribute =>
    "Can't access attributes on a list of objects. Did you mean to access an attribute for a"
      ++ " specific element of the list, or across all elements of the list?"
  | primitiveAttribute ty =>
    "Can't access attributes on a primitive-typed value (" ++ ty.name ++ ")."
  | nullKey => "Can't use a null value as an indexing key."
  | noElement => "The given key does not identify an element in this collection value."
  | nullIndexed => "This value is null, so it does not have any indices."
  | setIndexed =>
    "Elements of a set are identified only by their value and don't have any separate index or"
      ++ " key to select with, so it's only possible to perform operations across all elements"
      ++ " of the set."
  | notIndexed => "This value does not have any indices."
  | nullOperand side ty =>
    "Unsuitable value for " ++ side.text ++ " operand: a " ++ ty.name ++ " is required."
  | wrongOperand side e =>
    "Unsuitable value for " ++ side.text ++ " operand: " ++ e.message ++ "."
  | failedOperation e => "Error during operation: " ++ e.message ++ "."
  | nullInterpolation =>
    "The expression result is null. Cannot include a null value in a string template."
  | wrongInterpolation e =>
    "Cannot include the given value in a string template: " ++ e.message ++ "."
  | nullObjectKey => "Can't use a null value as a key."
  | wrongObjectKey e => "Can't use this value as a key: " ++ e.message ++ "."
  | nullExpansion => "The expanding argument (indicated by ...) must not be null."
  | wrongExpansion =>
    "The expanding argument (indicated by ...) must be of a tuple, list, or set type."
  | unknownFunction name => "There is no function named " ++ Text.inspect name ++ "."
  | failedCall name e =>
    "Call to function " ++ Text.inspect name ++ " failed: " ++ e.message ++ "."
  | nullCondition => "The condition value is null. Conditions must either be true or false."
  | wrongCondition => "The condition expression must be of type bool."
  | mixedBranches yes no =>
    "The true and false result expressions must have consistent types. The 'true' value is "
      ++ yes.name ++ ", but the 'false' value is " ++ no.name ++ "."
  | nullIteration =>
    "A null value cannot be used as the collection in a 'for' expression."
  | notIterable ty =>
    "A value of type " ++ ty.name ++ " cannot be used as the collection in a 'for' expression."
  | nullFilter => "The value of the 'if' clause must not be null."
  | wrongFilter e => "The 'if' clause value is invalid: " ++ e.message ++ "."
  | nullItemKey => "Key expression in 'for' expression must not produce a null value."
  | wrongItemKey e => "The key expression produced an invalid result: " ++ e.message ++ "."
  | duplicateItemKey key =>
    "Two different items produced the key " ++ Text.inspect key ++ " in this 'for' expression."
      ++ " If duplicates are expected, use the ellipsis (...) after the value expression to"
      ++ " enable grouping by key."

end EvalFault

/-- A fault and the range it is reported at. -/
structure EvalError where
  span : Span
  fault : EvalFault
  deriving DecidableEq

def EvalError.diagnostic (e : EvalError) : Diagnostic :=
  .errorAt .evaluation e.fault.summary e.fault.detail e.span

end StaticConfig

/-!
Taking values apart: attributes, indices, and the steps of traversals. The marks of a value and
of a key are put on the part that is taken.
-/
namespace StaticConfig

abbrev Evaluated := Except EvalError Value

namespace Value

/-- The type of the parts of a value of the type. -/
def partType (t : Ty) : Ty :=
  t.elementType?.getD .dynamic

/-- The attribute of an unmarked value. -/
def bareAttr (v : Value) (name : String) (span : Span) : Evaluated :=
  match v with
  | null _ => .error ⟨span, .nullAttribute⟩
  | unknown (.object attrs _) => .ok (unknown ((Fields.get? name attrs).getD .dynamic))
  | unknown (.map e) => .ok (unknown e)
  | unknown _ => .ok dynamic
  | object attrs =>
    match Fields.get? name attrs with
    | some v => .ok v
    | none => .error ⟨span, .noAttribute name⟩
  | map _ entries =>
    match Fields.get? name entries with
    | some v => .ok v
    | none => .error ⟨span, .noMapElement name⟩
  | list _ _ | set _ _ | tuple _ => .error ⟨span, .sequenceAttribute⟩
  | v => .error ⟨span, .primitiveAttribute v.ty⟩

def attr (v : Value) (name : String) (span : Span) : Evaluated :=
  (bareAttr v.unmarked name span).map (markIf v.isMarked)

/-- The item at an index, which is a number or converts to one. -/
def itemAt (items : List Value) (key : Value) : Option Value := do
  let index ← (← (← convert? key .number).number?).toInt?
  if index < 0 then none else items[index.toInt.toNat]?

/-- The entry of a name, which is a text or converts to one. -/
def entryAt (entries : Fields Value) (key : Value) : Option Value := do
  Fields.get? (← (← convert? key .string).string?) entries

/-- The element of an unmarked value at an unmarked key. -/
def bareElement (v key : Value) (span : Span) : Evaluated :=
  let found (o : Option Value) : Evaluated :=
    match o with
    | some v => .ok v
    | none => .error ⟨span, .noElement⟩
  if key.isNull then .error ⟨span, .nullKey⟩
  else match v with
    | null _ => .error ⟨span, .nullIndexed⟩
    | unknown t => .ok (unknown (partType t))
    | set _ _ => .error ⟨span, .setIndexed⟩
    | v =>
      if !key.isKnown then .ok (unknown (partType v.ty))
      else match v.items?, v.entries? with
        | some items, _ => found (itemAt items key)
        | none, some entries => found (entryAt entries key)
        | none, none => .error ⟨span, .notIndexed⟩

def element (v key : Value) (span : Span) : Evaluated :=
  (bareElement v.unmarked key.bare span).map (markIf (v.isMarked || key.hasMark))

def step (v : Value) : Step → Evaluated
  | .attr span name => v.attr name span
  | .index span key => v.element key span

/-- The part that the steps lead to, one after the other. -/
def steps (v : Value) : List Step → Evaluated
  | [] => .ok v
  | s :: rest => do
    let v ← v.step s
    v.steps rest

/-- The parts that the steps lead to from each item. -/
def stepsOfEach (each : List Step) : List Value → Except EvalError (List Value)
  | [] => .ok []
  | v :: vs => do
    let part ← v.steps each
    let parts ← stepsOfEach each vs
    pure (part :: parts)

/-- The steps applied to each element. A single value counts as one element, and null as none. -/
def bareSplat (v : Value) (each : List Step) : Evaluated :=
  match v with
  | null _ => .ok (tuple [])
  | unknown _ => .ok dynamic
  | v =>
    match v.items? with
    | some items => (stepsOfEach each items).map tuple
    | none => (v.steps each).map fun part => tuple [part]

def splat (v : Value) (each : List Step) : Evaluated :=
  (bareSplat v.unmarked each).map (markIf v.isMarked)

end Value

end StaticConfig
