import StaticConfig.Expr.Basic

/-!
Bodies of files and blocks: attributes by name, and blocks in the order they are written.
-/
namespace StaticConfig

structure Attribute where
  span : Span
  nameSpan : Span
  name : String
  expr : Expr
  deriving Inhabited

mutual

structure Body where
  span : Span
  attributes : List (String × Attribute)
  blocks : List Block

structure Block where
  span : Span
  /-- The range of the type and the labels. -/
  definition : Span
  type : String
  labels : List String
  labelSpans : List Span
  body : Body

end

namespace Body

instance : Inhabited Body := ⟨⟨default, [], []⟩⟩

def attribute? (b : Body) (name : String) : Option Attribute :=
  Fields.get? name b.attributes

def expr? (b : Body) (name : String) : Option Expr :=
  (b.attribute? name).map Attribute.expr

/-- The first block of the type. -/
def block? (b : Body) (type : String) : Option Block :=
  b.blocks.find? fun block => block.type == type

end Body

instance : Inhabited Block := ⟨⟨default, default, "", [], [], default⟩⟩

end StaticConfig
