import StaticConfig.Body

/-!
Substitution of a value for a name. Names that a for expression binds hide the name inside it,
and so does the iterator of a dynamic block, except in what the block iterates over.
-/
namespace StaticConfig

namespace Expr

mutual

/-- The expression with the value in place of the name. -/
def substitute (name : String) (v : Value) : Expr → Expr
  | .literal span value => .literal span value
  | .traversal span root steps =>
    if root = name then .relative span (.literal span v) steps else .traversal span root steps
  | .template span parts => .template span (substituteParts name v parts)
  | .relative span source steps => .relative span (substitute name v source) steps
  | .index span collection key =>
    .index span (substitute name v collection) (substitute name v key)
  | .splat span source each => .splat span (substitute name v source) each
  | .tuple span items => .tuple span (substituteAll name v items)
  | .object span items => .object span (substituteItems name v items)
  | .call span called args expand => .call span called (substituteAll name v args) expand
  | .unary span op operand => .unary span op (substitute name v operand)
  | .binary span op lhs rhs => .binary span op (substitute name v lhs) (substitute name v rhs)
  | .conditional span cond yes no =>
    .conditional span (substitute name v cond) (substitute name v yes) (substitute name v no)
  | .forEach span keyVar valueVar collection key value cond group =>
    if valueVar = name ∨ keyVar = some name then
      .forEach span keyVar valueVar (substitute name v collection) key value cond group
    else
      .forEach span keyVar valueVar (substitute name v collection) (substituteOption name v key)
        (substitute name v value) (substituteOption name v cond) group
  | .parens span inner => .parens span (substitute name v inner)

def substituteAll (name : String) (v : Value) : List Expr → List Expr
  | [] => []
  | e :: es => substitute name v e :: substituteAll name v es

def substituteOption (name : String) (v : Value) : Option Expr → Option Expr
  | none => none
  | some e => some (substitute name v e)

def substituteParts (name : String) (v : Value) : List TemplatePart → List TemplatePart
  | [] => []
  | .text s :: parts => .text s :: substituteParts name v parts
  | .interp e :: parts => .interp (substitute name v e) :: substituteParts name v parts

def substituteItems (name : String) (v : Value) :
    List (ObjectKey × Expr) → List (ObjectKey × Expr)
  | [] => []
  | (.name span s, e) :: items =>
    (.name span s, substitute name v e) :: substituteItems name v items
  | (.expr k, e) :: items =>
    (.expr (substitute name v k), substitute name v e) :: substituteItems name v items

end

end Expr

namespace Attribute

def substitute (name : String) (v : Value) (a : Attribute) : Attribute :=
  { a with expr := a.expr.substitute name v }

end Attribute

namespace Block

/-- A dynamic block, whose iterator hides the name. -/
def hides (b : Block) (name : String) : Bool :=
  b.type == "dynamic" &&
    match b.body.expr? "iterator" with
    | some e => e.keyword? == some name
    | none => b.labels.head? == some name

end Block

namespace Body

mutual

def substitute (name : String) (v : Value) : Body → Body
  | ⟨span, attributes, blocks⟩ =>
    ⟨span, attributes.map fun e => (e.1, e.2.substitute name v), substituteBlocks name v blocks⟩

def substituteBlocks (name : String) (v : Value) : List Block → List Block
  | [] => []
  | ⟨span, definition, type, labels, labelSpans, body⟩ :: bs =>
    let inner :=
      if Block.hides ⟨span, definition, type, labels, labelSpans, body⟩ name then
        -- Only the collection is outside of the iterator's reach.
        { body with attributes := body.attributes.map fun e =>
            if e.1 = "for_each" then (e.1, e.2.substitute name v) else e }
      else substitute name v body
    ⟨span, definition, type, labels, labelSpans, inner⟩ :: substituteBlocks name v bs

end

mutual

/-- How deep blocks are nested in the body. -/
def depth : Body → Nat
  | ⟨_, _, blocks⟩ => blocksDepth blocks

def blocksDepth : List Block → Nat
  | [] => 0
  | ⟨_, _, _, _, _, body⟩ :: bs => max (body.depth + 1) (blocksDepth bs)

end

end Body

end StaticConfig
