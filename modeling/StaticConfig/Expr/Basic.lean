import StaticConfig.Fields
import StaticConfig.Source
import StaticConfig.Value.Basic

/-!
Expressions of the configuration language. Every expression and every step of a traversal knows
the range of source text it was written in.
-/
namespace StaticConfig

inductive UnaryOp where
  | neg
  | not
  deriving DecidableEq, Inhabited

inductive BinaryOp where
  | mul
  | div
  | mod
  | add
  | sub
  | lt
  | le
  | gt
  | ge
  | eq
  | ne
  | and
  | or
  deriving DecidableEq, Inhabited

namespace BinaryOp

def text : BinaryOp → String
  | mul => "*"
  | div => "/"
  | mod => "%"
  | add => "+"
  | sub => "-"
  | lt => "<"
  | le => "<="
  | gt => ">"
  | ge => ">="
  | eq => "=="
  | ne => "!="
  | and => "&&"
  | or => "||"

/-- The operators by level of precedence, loosest first. -/
def levels : List (List BinaryOp) :=
  [[or], [and], [eq, ne], [lt, le, gt, ge], [add, sub], [mul, div, mod]]

end BinaryOp

/-- A `.name` or `[key]` step of a traversal. -/
inductive Step where
  | attr (span : Span) (name : String)
  | index (span : Span) (key : Value)
  deriving Inhabited

namespace Step

def span : Step → Span
  | attr span _ => span
  | index span _ => span

end Step

mutual

inductive Expr where
  | literal (span : Span) (value : Value)
  | template (span : Span) (parts : List TemplatePart)
  /-- A name with the steps that follow it. -/
  | traversal (span : Span) (root : String) (steps : List Step)
  /-- Steps that follow another expression. -/
  | relative (span : Span) (source : Expr) (steps : List Step)
  | index (span : Span) (collection key : Expr)
  | splat (span : Span) (source : Expr) (each : List Step)
  | tuple (span : Span) (items : List Expr)
  | object (span : Span) (items : List (ObjectKey × Expr))
  /-- A function call. When `expand` is set the final argument gives several arguments. -/
  | call (span : Span) (name : String) (args : List Expr) (expand : Bool)
  | unary (span : Span) (op : UnaryOp) (operand : Expr)
  | binary (span : Span) (op : BinaryOp) (lhs rhs : Expr)
  | conditional (span : Span) (cond yes no : Expr)
  /-- A for expression: a tuple, or an object if there is a key. -/
  | forEach (span : Span) (keyVar : Option String) (valueVar : String) (collection : Expr)
      (key : Option Expr) (value : Expr) (cond : Option Expr) (group : Bool)
  | parens (span : Span) (inner : Expr)

inductive TemplatePart where
  | text (s : String)
  | interp (e : Expr)

inductive ObjectKey where
  /-- A bare name, taken literally. -/
  | name (span : Span) (s : String)
  | expr (e : Expr)

end

namespace Expr

instance : Inhabited Expr := ⟨literal default default⟩

def span : Expr → Span
  | literal span _ | template span _ | traversal span _ _ | relative span _ _ | index span _ _
  | splat span _ _ | tuple span _ | object span _ | call span _ _ _ | unary span _ _
  | binary span _ _ _ | conditional span _ _ _ | forEach span _ _ _ _ _ _ _
  | parens span _ => span

/-- The name, if the expression is a single name such as `string`. -/
def keyword? : Expr → Option String
  | traversal _ root [] => some root
  | parens _ inner => inner.keyword?
  | _ => none

/-- The text of a template without interpolations. -/
def templateText? : List TemplatePart → Option String
  | [] => some ""
  | [.text s] => some s
  | _ => none

/-- The value of a literal or of a template without interpolations. -/
def literal? : Expr → Option Value
  | literal _ value => some value
  | template _ parts => (templateText? parts).map Value.string
  | _ => none

/-- The expression with one more step behind it. -/
def follow (e : Expr) (step : Step) : Expr :=
  let span := e.span.through step.span
  match e with
  | traversal _ root steps => traversal span root (steps ++ [step])
  | relative _ source steps => relative span source (steps ++ [step])
  | e => relative span e [step]

end Expr

end StaticConfig
