import Mathlib.Logic.Function.Basic
import StaticConfig.Builtin.Library
import StaticConfig.Proofs.Evaluation.Compositional

/-!
How an evaluation depends on what definitions are evaluated to. The functions that expressions
call include one that reads definitions from a text and evaluates the expressions in them. For
any way to do that, one evaluation depends on the reports of finitely many of these expressions
only, and on none that it never depends on.
-/
namespace StaticConfig

/-- A way to evaluate the expressions of definitions that are read. -/
abbrev Reading := Expr → Report Value

namespace Reading

variable {α β : Type} {m : Reading → α}

/-- The result is the same wherever the reports of some finitely many expressions are. -/
def Finitary (m : Reading → α) : Prop :=
  ∀ evaluate, ∃ asked : List Expr, ∀ evaluate' : Reading,
    (∀ e ∈ asked, evaluate' e = evaluate e) → m evaluate' = m evaluate

theorem finitary_const (a : α) : Finitary fun _ => a :=
  fun _ => ⟨[], fun _ _ => rfl⟩

/-- A second computation that goes on from the result of the first. -/
theorem Finitary.next {f : α → Reading → β} (hm : Finitary m) (hf : ∀ a, Finitary (f a)) :
    Finitary fun evaluate => f (m evaluate) evaluate := by
  intro evaluate
  obtain ⟨asked, hasked⟩ := hm evaluate
  obtain ⟨more, hmore⟩ := hf (m evaluate) evaluate
  refine ⟨asked ++ more, fun evaluate' h => ?_⟩
  rw [List.forall_mem_append] at h
  simp only [hasked evaluate' h.1, hmore evaluate' h.2]

theorem Finitary.congr {m' : Reading → α} (hm : Finitary m)
    (h : ∀ evaluate, m' evaluate = m evaluate) : Finitary m' := by
  rwa [funext h]

theorem Finitary.map (hm : Finitary m) (f : α → β) : Finitary fun evaluate => f (m evaluate) :=
  hm.next fun a => finitary_const (f a)

/-- The result changes for some change of the report of the expression alone. -/
def DependsOn (m : Reading → α) (e : Expr) : Prop :=
  ∃ evaluate evaluate' : Reading,
    (∀ e', e' ≠ e → evaluate' e' = evaluate e') ∧ m evaluate' ≠ m evaluate

end Reading

namespace Builtin

open Reading

/-- The expressions that are evaluated where definitions are read from the value. -/
def Definitions.asked (v : Value) : List Expr :=
  match asString v with
  | .error _ => []
  | .ok s =>
    match Parser.file ⟨Definitions.sourceName, s⟩ with
    | .error _ => []
    | .ok body => body.attributes.map fun e => e.2.expr

end Builtin

namespace Library

open Reading

/-- The name of the function that reads definitions. -/
def decoding : String := "provider::terraform::decode_tfvars"

theorem withEvaluator_decoding (ambient : Ambient) (evaluate : Reading) (site : Span) :
    withEvaluator ambient evaluate site decoding =
      some (Builtin.unary .dynamic (Builtin.Definitions.decode evaluate)) := by
  have hplain : plainFunctions.lookup decoding = none := by decide +kernel
  rw [withEvaluator, hplain]
  rfl

theorem withEvaluator_of_ne {name : String} (h : name ≠ decoding) (ambient : Ambient)
    (evaluate evaluate' : Reading) (site : Span) :
    withEvaluator ambient evaluate site name = withEvaluator ambient evaluate' site name := by
  have hlookup : (Builtin.Definitions.functions evaluate).lookup name =
      (Builtin.Definitions.functions evaluate').lookup name := by
    have hne : (name == "provider::terraform::decode_tfvars") = false := beq_eq_false_iff_ne.2 h
    simp only [Builtin.Definitions.functions, List.lookup_cons, hne]
  rw [withEvaluator, withEvaluator, hlookup]

/-- What a call gives, given what the function answers. -/
def called (name : String) (span : Span) (r : CallResult) : Evaluated :=
  match r with
  | .ok v => .ok v
  | .error e => .error ⟨span, .failedCall name e⟩

end Library

end StaticConfig
