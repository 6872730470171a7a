import StaticConfig.Diagnostic
import StaticConfig.Expr.Basic
import StaticConfig.Text.Inspect

/-!
What expressions refer to. The leading steps of a traversal name a subject; the text of a
subject is its identity in messages and in chains of references. Names that a for expression
binds are not references.
-/
namespace StaticConfig

inductive ResourceMode where
  | managed
  | data
  deriving DecidableEq, Inhabited

/-- Something that an expression can refer to. -/
inductive Subject where
  | input (name : String)
  | localValue (name : String)
  | output (name : String)
  | path (name : String)
  | terraform (name : String)
  | count (name : String)
  | each (name : String)
  | resource (mode : ResourceMode) (type name : String)
  | moduleCall (name : String)
  | self
  deriving DecidableEq, Inhabited

namespace Subject

def text : Subject → String
  | input name => "var." ++ name
  | localValue name => "local." ++ name
  | output name => "output." ++ name
  | path name => "path." ++ name
  | terraform name => "terraform." ++ name
  | count name => "count." ++ name
  | each name => "each." ++ name
  | resource .managed type name => type ++ "." ++ name
  | resource .data type name => "data." ++ type ++ "." ++ name
  | moduleCall name => "module." ++ name
  | self => "self"

end Subject

structure Reference where
  subject : Subject
  range : Span
  deriving DecidableEq, Inhabited

namespace Reference

def invalid (detail : String) (span : Span) : Diagnostic :=
  .errorAt .invalidReference "Invalid reference" detail span

/-- The attribute at the given place among the steps, with its range. -/
def attrAt (steps : List Step) (index : Nat) : Option (String × Span) :=
  match steps[index]? with
  | some (.attr span name) => some (name, span)
  | _ => none

/-- A reference that is a root and one attribute. -/
def ofAttr (make : String → Subject) (root : String) (steps : List Step) (span : Span) :
    Except Diagnostic Reference :=
  match steps with
  | .attr range name :: _ => .ok ⟨make name, span.through range⟩
  | [] =>
    .error (invalid ("The " ++ Text.inspect root
      ++ " object cannot be accessed directly. Instead, access one of its attributes.") span)
  | _ =>
    .error (invalid ("The " ++ Text.inspect root
      ++ " object does not support this operation.") span)

def countDetail (name : String) : String :=
  "The \"count\" object does not have an attribute named " ++ Text.inspect name
    ++ ". The only supported attribute is count.index, which is the index of each instance of"
    ++ " a resource block that has the \"count\" argument set."

def eachDetail (name : String) : String :=
  "The \"each\" object does not have an attribute named " ++ Text.inspect name
    ++ ". The supported attributes are each.key and each.value, the current key and value pair"
    ++ " of the \"for_each\" attribute set."

def dataDetail : String :=
  "The \"data\" object must be followed by two attribute names: the data source type and the"
    ++ " resource name."

def resourceDetail : String :=
  "A reference to a resource type must be followed by at least one attribute access,"
    ++ " specifying the resource name."

/-- The reference named by the leading steps of a traversal. -/
def ofTraversal (root : String) (steps : List Step) (span : Span) :
    Except Diagnostic Reference :=
  if root = "var" then ofAttr .input root steps span
  else if root = "local" then ofAttr .localValue root steps span
  else if root = "path" then ofAttr .path root steps span
  else if root = "terraform" then ofAttr .terraform root steps span
  else if root = "module" then ofAttr .moduleCall root steps span
  else if root = "count" then
    match attrAt steps 0 with
    | some (name, range) =>
      if name = "index" then .ok ⟨.count name, span.through range⟩
      else
        .error (.errorAt .invalidReference "Invalid \"count\" attribute" (countDetail name) range)
    | none => ofAttr .count root steps span
  else if root = "each" then
    match attrAt steps 0 with
    | some (name, range) =>
      if name = "key" ∨ name = "value" then .ok ⟨.each name, span.through range⟩
      else
        .error (.errorAt .invalidReference "Invalid \"each\" attribute" (eachDetail name) range)
    | none => ofAttr .each root steps span
  else if root = "self" then .ok ⟨.self, span⟩
  else if root = "data" then
    match attrAt steps 0, attrAt steps 1 with
    | some (type, _), some (name, range) => .ok ⟨.resource .data type name, span.through range⟩
    | _, _ => .error (invalid dataDetail span)
  else
    match attrAt steps 0 with
    | some (name, range) => .ok ⟨.resource .managed root name, span.through range⟩
    | none => .error (invalid resourceDetail span)

end Reference

/-- References in the order they are made, and what is wrong with others. -/
structure References where
  refs : List Reference
  diags : Diagnostics
  deriving Inhabited

namespace References

def empty : References := ⟨[], []⟩

def append (a b : References) : References :=
  ⟨a.refs ++ b.refs, a.diags ++ b.diags⟩

instance : Append References := ⟨append⟩

def ofTraversal (bound : List String) (root : String) (steps : List Step) (span : Span) :
    References :=
  if bound.contains root then empty
  else match Reference.ofTraversal root steps span with
    | .ok r => ⟨[r], []⟩
    | .error d => ⟨[], [d]⟩

/-- The names bound inside a for expression. -/
def bind (bound : List String) (keyVar : Option String) (valueVar : String) : List String :=
  valueVar :: keyVar.toList ++ bound

mutual

/-- The references that an expression makes, apart from the names in `bound`. -/
def ofExpr (bound : List String) : Expr → References
  | .literal _ _ => empty
  | .traversal span root steps => ofTraversal bound root steps span
  | .template _ parts => ofParts bound parts
  | .relative _ source _ => ofExpr bound source
  | .splat _ source _ => ofExpr bound source
  | .index _ collection key => ofExpr bound collection ++ ofExpr bound key
  | .tuple _ items => ofExprs bound items
  | .object _ items => ofItems bound items
  | .call _ _ args _ => ofExprs bound args
  | .unary _ _ operand => ofExpr bound operand
  | .parens _ inner => ofExpr bound inner
  | .binary _ _ lhs rhs => ofExpr bound lhs ++ ofExpr bound rhs
  | .conditional _ cond yes no => ofExpr bound cond ++ ofExpr bound yes ++ ofExpr bound no
  | .forEach _ keyVar valueVar collection key value cond _ =>
    let inner := bind bound keyVar valueVar
    ofExpr bound collection ++ ofOption inner key ++ ofExpr inner value ++ ofOption inner cond

def ofExprs (bound : List String) : List Expr → References
  | [] => empty
  | e :: es => ofExpr bound e ++ ofExprs bound es

def ofOption (bound : List String) : Option Expr → References
  | none => empty
  | some e => ofExpr bound e

def ofParts (bound : List String) : List TemplatePart → References
  | [] => empty
  | .text _ :: parts => ofParts bound parts
  | .interp e :: parts => ofExpr bound e ++ ofParts bound parts

def ofItems (bound : List String) : List (ObjectKey × Expr) → References
  | [] => empty
  | (.name _ _, value) :: items => ofExpr bound value ++ ofItems bound items
  | (.expr key, value) :: items =>
    ofExpr bound key ++ ofExpr bound value ++ ofItems bound items

end

end References

end StaticConfig
