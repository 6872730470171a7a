import StaticConfig.Eval.Basic
import StaticConfig.Reference

/-!
Evaluation of expressions that may not refer to anything.
-/
namespace StaticConfig.Eval

/-- Where the expression first refers to something, if it does. -/
def firstReference (found : References) : Option Span :=
  match found.refs, found.diags with
  | r :: _, _ => some r.range
  | [], d :: _ => d.subject
  | [], [] => none

/-- The value of an expression without references. -/
def constant (library : Library) (e : Expr) : Report Value :=
  match firstReference (References.ofExpr [] e) with
  | some span =>
    ⟨.dynamic, [.errorAt .evaluation "Variables not allowed" "Variables may not be used here."
      span]⟩
  | none => eval ⟨library, false⟩ [] e

end StaticConfig.Eval
