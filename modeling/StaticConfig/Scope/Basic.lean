import StaticConfig.Eval.Basic
import StaticConfig.Reference

/-!
The names that an expression sees, made from the values of what it refers to. Each root is an
object whose attributes are the subjects below it.
-/
namespace StaticConfig

structure Roots where
  roots : Fields (Fields Value)
  /-- Data resources by type and name. -/
  data : Fields (Fields Value)
  self : Option Value
  deriving Inhabited

namespace Roots

def empty : Roots := ⟨[], [], none⟩

/-- Adds an attribute to the object of the name. -/
def under (root name : String) (v : Value) (fields : Fields (Fields Value)) :
    Fields (Fields Value) :=
  fields.insert root (((fields.get? root).getD []).insert name v)

def add (r : Roots) (root name : String) (v : Value) : Roots :=
  { r with roots := under root name v r.roots }

/-- Adds the value of a subject. -/
def insert (r : Roots) (subject : Subject) (v : Value) : Roots :=
  match subject with
  | .input name => r.add "var" name v
  | .localValue name => r.add "local" name v
  | .output name => r.add "output" name v
  | .path name => r.add "path" name v
  | .terraform name => r.add "terraform" name v
  | .count name => r.add "count" name v
  | .each name => r.add "each" name v
  | .moduleCall name => r.add "module" name v
  | .resource .managed type name => r.add type name v
  | .resource .data type name => { r with data := under type name v r.data }
  | .self => { r with self := some v }

/-- The values of the root names. -/
def env (r : Roots) : Env :=
  let vars : Fields Value := r.roots.mapValues Value.object
  let vars :=
    if r.data.isEmpty then vars
    else vars.insert "data" (.object (r.data.mapValues Value.object))
  match r.self with
  | some v => vars.insert "self" v
  | none => vars

end Roots

end StaticConfig

/-!
Evaluation of expressions against a source of values for what they refer to. Every subject is
looked up once; if that goes wrong the expression is not evaluated, and its value is an unknown
one of the wanted type.
-/
namespace StaticConfig

/-- A computation with a state, which it keeps also when it fails. -/
abbrev Resolving (ε σ : Type) := ExceptT ε (StateM σ)

/-- Where the values of references come from. -/
structure DataSource (ε σ : Type) where
  /-- Checks references before any is looked up. It is told what `self` stands for, and what the
  expression belongs to. -/
  validate : List Reference → Option Subject → Option Subject → Diagnostics
  /-- The value of a reference. -/
  lookup : Reference → Resolving ε σ (Report Value)

structure Scope (ε σ : Type) where
  source : DataSource ε σ
  library : Library
  /-- What `self` stands for. -/
  selfSubject : Option Subject
  /-- What the expressions belong to. -/
  owner : Option Subject
  pureOnly : Bool

namespace Scope

variable {ε σ : Type}

def ofSource (source : DataSource ε σ) (library : Library) : Scope ε σ :=
  ⟨source, library, none, none, false⟩

/-- The references without those to a subject that came earlier. -/
def distinctFrom (seen : List String) : List Reference → List Reference
  | [] => []
  | r :: rs =>
    if seen.contains r.subject.text then distinctFrom seen rs
    else r :: distinctFrom (r.subject.text :: seen) rs

/-- Looks up the references in order. -/
def lookupAll (source : DataSource ε σ) (roots : Roots) (ds : Diagnostics) :
    List Reference → Resolving ε σ (Report Roots)
  | [] => pure ⟨roots, ds⟩
  | r :: rs => do
    let found ← source.lookup r
    lookupAll source (roots.insert r.subject found.result) (ds ++ found.diags) rs

def wrongType (e : ConversionError) (span : Span) : Diagnostic :=
  .errorAt .typeMismatch "Incorrect value type"
    ("Invalid expression value: " ++ e.message ++ ".") span

/-- The value converted to the wanted type. -/
def finish (want : Ty) (span : Span) (r : Report Value) : Report Value :=
  match r.result.convert want with
  | .ok v => ⟨v, r.diags⟩
  | .error e => ⟨.unknown want, r.diags ++ [wrongType e span]⟩

/-- Evaluates the expression and converts its value to the wanted type. -/
def eval (s : Scope ε σ) (e : Expr) (want : Ty) : Resolving ε σ (Report Value) := do
  let found := References.ofExpr [] e
  let ds := found.diags ++ s.source.validate found.refs s.selfSubject s.owner
  let roots ← lookupAll s.source .empty ds (distinctFrom [] found.refs)
  if Diagnostics.hasErrors roots.diags then pure ⟨.unknown want, roots.diags⟩
  else
    let r := Eval.eval ⟨s.library, s.pureOnly⟩ roots.result.env e
    pure (finish want e.span ⟨r.result, roots.diags ++ r.diags⟩)

end Scope

end StaticConfig
