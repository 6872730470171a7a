import StaticConfig.Scope.Basic
import StaticConfig.Scope.Substitution

/-!
Expansion of dynamic blocks. A dynamic block stands for one block for each element of a
collection; the element is put in place of the iterator in the content of the block.
-/
namespace StaticConfig

/-- The types of blocks that dynamic blocks may stand for, with those inside them. -/
structure BodySchema where
  blocks : List (String × BodySchema)
  deriving Inhabited

namespace BodySchema

def find? (s : BodySchema) (type : String) : Option BodySchema := s.blocks.lookup type

end BodySchema

/-- A dynamic block, taken apart. -/
structure DynamicBlock where
  collection : Expr
  iterator : String
  labels : List Expr
  content : Body

namespace DynamicBlock

def problem (summary detail : String) (span : Span) : Except Diagnostic DynamicBlock :=
  .error (.errorAt .decode summary detail span)

/-- The parts of a dynamic block that stands for blocks of the type. -/
def ofBlock (b : Block) (type : String) : Except Diagnostic DynamicBlock :=
  match b.body.expr? "for_each" with
  | none =>
    problem "Missing required argument"
      "The argument \"for_each\" is required, but no definition was found." b.definition
  | some collection =>
    match b.body.block? "content" with
    | none =>
      problem "Missing content block"
        ("A dynamic block must have a nested block of type \"content\" to describe the body of"
          ++ " each generated block.") b.definition
    | some content =>
      match (b.body.expr? "iterator").map fun e => (e.keyword?, e.span) with
      | some (none, span) =>
        problem "Invalid dynamic iterator name"
          "Dynamic iterator must be a single variable name." span
      | some (some name, _) => withLabels collection name content.body
      | none => withLabels collection type content.body
where
  /-- Adds the labels, which have to be written as a tuple. -/
  withLabels (collection : Expr) (iterator : String) (content : Body) :
      Except Diagnostic DynamicBlock :=
    match b.body.expr? "labels" with
    | none => .ok ⟨collection, iterator, [], content⟩
    | some (.tuple _ items) => .ok ⟨collection, iterator, items, content⟩
    | some e =>
      problem "Invalid dynamic block labels"
        "The labels argument must be a tuple of label expressions." e.span

def invalidCollection (detail : String) (span : Span) : Diagnostic :=
  .errorAt .evaluation "Invalid dynamic for_each value" detail span

/-- The elements of a collection without marks. An unknown collection has one unknown element. -/
def elements (v : Value) (span : Span) : Except Diagnostic (List (Value × Value)) :=
  match v with
  | .unknown _ => .ok [(.dynamic, .dynamic)]
  | .null _ => .error (invalidCollection "Cannot use a null value in for_each." span)
  | v =>
    match v.iterated? with
    | some es => .ok es
    | none =>
      .error (invalidCollection ("Cannot use a " ++ v.ty.name
        ++ " value in for_each. An iterable collection is required.") span)

/-- The value of the iterator for an element. -/
def iteratorValue (e : Value × Value) : Value :=
  .object [("key", e.1), ("value", e.2)]

end DynamicBlock

namespace Scope

variable {ε σ : Type}

def nullLabel (span : Span) : Diagnostic :=
  .errorAt .evaluation "Invalid dynamic block label"
    "Cannot use a null value as a dynamic block label." span

/-- The texts of labels, if all are known. -/
def evalLabels (s : Scope ε σ) : List Expr → Resolving ε σ (Report (Option (List String)))
  | [] => pure ⟨some [], []⟩
  | e :: es => do
    let r ← s.eval e .string
    let rest ← evalLabels s es
    match r.result.bare with
    | .string text => pure ⟨rest.result.map (text :: ·), r.diags ++ rest.diags⟩
    | .unknown _ => pure ⟨none, r.diags ++ rest.diags⟩
    | _ => pure ⟨none, r.diags ++ [nullLabel e.span] ++ rest.diags⟩

/-- The blocks for the elements, in order. A block whose labels are not all known is left out. -/
def generate (s : Scope ε σ) (expand : Body → Resolving ε σ (Report Body)) (b : Block)
    (type : String) (d : DynamicBlock) :
    List (Value × Value) → Resolving ε σ (Report (List Block))
  | [] => pure ⟨[], []⟩
  | e :: es => do
    let v := DynamicBlock.iteratorValue e
    let labels := Expr.substituteAll d.iterator v d.labels
    let texts ← evalLabels s labels
    match texts.result with
    | none => do
      let rest ← generate s expand b type d es
      pure ⟨rest.result, texts.diags ++ rest.diags⟩
    | some texts' => do
      let body ← expand (d.content.substitute d.iterator v)
      let rest ← generate s expand b type d es
      let made : Block :=
        ⟨b.span, b.definition, type, texts', labels.map Expr.span, body.result⟩
      pure ⟨made :: rest.result, texts.diags ++ body.diags ++ rest.diags⟩

/-- The blocks that a dynamic block stands for. -/
def expandDynamic (s : Scope ε σ) (expand : Body → Resolving ε σ (Report Body)) (b : Block)
    (type : String) : Resolving ε σ (Report (List Block)) :=
  match DynamicBlock.ofBlock b type with
  | .error d => pure ⟨[], [d]⟩
  | .ok d => do
    let r ← s.eval d.collection .dynamic
    match DynamicBlock.elements r.result.bare d.collection.span with
    | .error problem => pure ⟨[], r.diags ++ [problem]⟩
    | .ok es => do
      let blocks ← generate s expand b type d es
      pure ⟨blocks.result, r.diags ++ blocks.diags⟩

/-- The type that a dynamic block stands for. -/
def dynamicType? (b : Block) : Option String :=
  if b.type = "dynamic" then
    match b.labels with
    | [type] => some type
    | _ => none
  else none

/-- The blocks with the dynamic ones among them replaced. -/
def expandBlocks (s : Scope ε σ) (expand : Body → BodySchema → Resolving ε σ (Report Body))
    (schema : BodySchema) : List Block → Resolving ε σ (Report (List Block))
  | [] => pure ⟨[], []⟩
  | b :: bs => do
    let type := (dynamicType? b).getD b.type
    let first ← match schema.find? type with
      | none => pure ⟨[b], []⟩
      | some nested =>
        if (dynamicType? b).isSome then expandDynamic s (expand · nested) b type
        else do
          let body ← expand b.body nested
          pure ⟨[{ b with body := body.result }], body.diags⟩
    let rest ← expandBlocks s expand schema bs
    pure ⟨first.result ++ rest.result, first.diags ++ rest.diags⟩

/-- Expansion of bodies whose blocks are nested less than `fuel` deep. -/
def expandWithin (s : Scope ε σ) : Nat → Body → BodySchema → Resolving ε σ (Report Body)
  | 0, body, _ => pure ⟨body, []⟩
  | fuel + 1, body, schema => do
    let blocks ← expandBlocks s (expandWithin s fuel) schema body.blocks
    pure ⟨{ body with blocks := blocks.result }, blocks.diags⟩

/-- The body with its dynamic blocks replaced by the blocks they stand for. -/
def expand (s : Scope ε σ) (body : Body) (schema : BodySchema) : Resolving ε σ (Report Body) :=
  expandWithin s (body.depth + 1) body schema

end Scope

end StaticConfig
