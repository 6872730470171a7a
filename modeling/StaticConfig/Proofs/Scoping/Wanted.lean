import StaticConfig.Proofs.Conversion.Establishes
import StaticConfig.Proofs.Evaluation.Forms
import StaticConfig.Proofs.Resolution.Steady
import StaticConfig.Proofs.Scoping.Roots

/-!
The type that an evaluation is asked for. Evaluation looks up what the expression refers to, and
then comes to its conclusion: the converted value, or the unknown value of the wanted type.
Whatever went wrong, the value has this type.
-/
namespace StaticConfig.Scope

variable {ε σ : Type}

/-- The values of what the expression refers to, and all that is reported before the expression
is evaluated. -/
def resolve (s : Scope ε σ) (e : Expr) : Resolving ε σ (Report Roots) :=
  let found := References.ofExpr [] e
  lookupAll s.source .empty (found.diags ++ s.source.validate found.refs s.selfSubject s.owner)
    (distinctFrom [] found.refs)

/-- The value that the expression has by itself. -/
def valueFrom (s : Scope ε σ) (e : Expr) (roots : Roots) : Report Value :=
  Eval.eval ⟨s.library, s.pureOnly⟩ roots.env e

/-- The expression has no value of the wanted type: something that it refers to is in error, or
its own value does not convert. -/
def Fails (s : Scope ε σ) (e : Expr) (want : Ty) (roots : Report Roots) : Prop :=
  roots.diags.hasErrors ∨ ∃ err, (s.valueFrom e roots.result).result.convert want = .error err

/-- The result of an evaluation, given what it refers to. -/
def conclude (s : Scope ε σ) (e : Expr) (want : Ty) (roots : Report Roots) : Report Value :=
  if roots.diags.hasErrors then ⟨.unknown want, roots.diags⟩
  else
    let r := s.valueFrom e roots.result
    finish want e.span ⟨r.result, roots.diags ++ r.diags⟩

variable {s : Scope ε σ} {e : Expr} {want : Ty}

/-- An evaluation that ends has looked up what it refers to, and has drawn its conclusion. -/
theorem run_eval_eq_ok {st st' : σ} {r : Report Value} :
    (s.eval e want).run.run st = (.ok r, st') ↔
      ∃ roots, (s.resolve e).run.run st = (.ok roots, st') ∧ s.conclude e want roots = r := by
  have heval : s.eval e want = s.resolve e >>= fun roots => pure (s.conclude e want roots) := by
    refine congrArg (s.resolve e >>= ·) (funext fun roots => ?_)
    unfold conclude
    by_cases hd : roots.diags.hasErrors
    · simp only [hd, if_true]
    · simp only [hd]
      rfl
  rw [heval, Resolving.run_bind]
  constructor
  · intro h
    split at h
    · rename_i roots st'' hroots
      have hr : (Except.ok (s.conclude e want roots), st'') = (.ok r, st') := h
      obtain ⟨hconclude, hst⟩ := Prod.mk.inj hr
      subst hst
      exact ⟨roots, hroots, Except.ok.inj hconclude⟩
    · cases h
  · intro h
    obtain ⟨roots, hroots, hr⟩ := h
    rw [hroots, ← hr]
    rfl

theorem hasType_finish (hw : want.Definite) (span : Span) (r : Report Value) :
    (finish want span r).result.HasType want := by
  unfold finish
  split
  · rename_i v hv
    exact Value.hasType_of_convert hw hv
  · exact Value.hasType_unknown want

theorem hasType_conclude (hw : want.Definite) (roots : Report Roots) :
    (s.conclude e want roots).result.HasType want := by
  unfold conclude
  split
  · exact Value.hasType_unknown want
  · exact hasType_finish hw _ _

theorem conclude_of_fails {roots : Report Roots} (h : s.Fails e want roots) :
    (s.conclude e want roots).result = .unknown want ∧
      (s.conclude e want roots).diags.hasErrors := by
  unfold conclude
  by_cases hd : roots.diags.hasErrors
  · simp only [hd, if_true, and_self]
  · obtain ⟨err, herr⟩ := h.resolve_left hd
    have hwrong : Diagnostics.hasErrors [wrongType err e.span] = true := rfl
    simp only [hd, finish, herr]
    refine ⟨rfl, ?_⟩
    change Diagnostics.hasErrors ((roots.diags ++ _) ++ [wrongType err e.span]) = true
    rw [Diagnostics.hasErrors_append, hwrong, Bool.or_true]

/-- Where no type is asked for, the value of an attribute of a root is what was found for it. -/
theorem conclude_attribute {root x : String} {subject : Subject} {v : Value} {ds : Diagnostics}
    (henv : (Roots.empty.insert subject v).env = [(root, .object [(x, v)])])
    (hv : v.convert .dynamic = .ok v) (span range : Span) :
    s.conclude (.traversal span root [.attr range x]) .dynamic
        ⟨Roots.empty.insert subject v, ds⟩ =
      if ds.hasErrors then ⟨.unknown .dynamic, ds⟩ else ⟨v, ds⟩ := by
  have hvalue : s.valueFrom (.traversal span root [.attr range x])
      (Roots.empty.insert subject v) = ⟨v, []⟩ := by
    have hroot : (Roots.empty.insert subject v).env.lookup root = some (.object [(x, v)]) := by
      rw [henv, List.lookup_cons_self]
    have hget : Fields.get? x [(x, v)] = some v := by simp [Fields.get?]
    refine Eval.eval_traversal_eq_clean.2 ⟨_, hroot, ?_⟩
    rw [Value.steps, Value.step_object hget]
    rfl
  unfold conclude
  by_cases hd : ds.hasErrors
  · rw [if_pos hd, if_pos hd]
  · rw [if_neg hd, if_neg hd, hvalue]
    simp only [List.append_nil]
    unfold finish
    rw [hv]

/-- The value of an evaluation has the type it was asked for, and its collections hold what they
declare. If what the expression refers to is in error, or the conversion fails, the value is the
unknown one of this type and an error is reported. -/
theorem hasType_of_eval (hw : want.Definite) {st st' : σ} {r : Report Value}
    (h : (s.eval e want).run.run st = (.ok r, st')) :
    (r.result.ty = want ∧ r.result.WellTyped) ∧
      ∃ roots, (s.resolve e).run.run st = (.ok roots, st') ∧
        (s.Fails e want roots → r.result = .unknown want ∧ r.diags.hasErrors) := by
  obtain ⟨roots, hroots, hr⟩ := run_eval_eq_ok.1 h
  subst hr
  exact ⟨hasType_conclude hw roots, roots, hroots, conclude_of_fails⟩

/-- The scope in which every reference stands for the value. -/
def constantly (v : Value) : Scope String Unit :=
  ofSource ⟨fun _ _ _ => [], fun _ => pure ⟨v, []⟩⟩ fun _ _ => none

def flagsVariable : Expr := .traversal default "var" [.attr default "flags"]

/-- A list of truth values is asked for. Two values in a tuple convert to one, a text does not. -/
theorem hasType_of_eval_flags :
    (∃ r, ((constantly (.tuple [.string "true", .sensitive (.bool false)])).eval flagsVariable
        (.list .bool)).run.run () = (.ok r, ()) ∧
      r.result = .list .bool [.bool true, .sensitive (.bool false)] ∧
      r.result.ty = .list .bool ∧ r.result.WellTyped) ∧
    ∃ r, ((constantly (.string "true")).eval flagsVariable (.list .bool)).run.run () = (.ok r, ()) ∧
      r.result = .unknown (.list .bool) ∧ r.diags.hasErrors := by
  constructor
  · have hrun : ((constantly (.tuple [.string "true", .sensitive (.bool false)])).eval
        flagsVariable (.list .bool)).run.run () =
          (.ok ⟨.list .bool [.bool true, .sensitive (.bool false)], []⟩, ()) := rfl
    exact ⟨_, hrun, rfl, (hasType_of_eval (.list .bool) hrun).1⟩
  · have hrun : ((constantly (.string "true")).eval flagsVariable (.list .bool)).run.run () =
        (.ok ⟨.unknown (.list .bool),
          [wrongType (.ofFault (.required (.list .bool))) flagsVariable.span]⟩, ()) := rfl
    obtain ⟨-, roots, hroots, hfails⟩ := hasType_of_eval (.list .bool) hrun
    cases hroots
    exact ⟨_, hrun, hfails (.inr ⟨_, rfl⟩)⟩

end StaticConfig.Scope
