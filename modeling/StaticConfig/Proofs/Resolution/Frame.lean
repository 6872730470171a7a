import StaticConfig.Evaluator
import StaticConfig.Proofs.Fields
import StaticConfig.Proofs.Resolution.Steady

/-!
What an evaluator leaves behind. Resolving a local value puts one reference on the call stack and
takes it off again, whatever happens in between, and a local value in progress is not resolved a
second time. So an operation ends with the stack it began with, and meanwhile the stack is longer
by no more references than the module declares local values.
-/
namespace StaticConfig

open Resolving

namespace Resolving

variable {σ : Type} {ε : Type} {may : ε → Prop} {s : σ}

theorem coincide_get : Coincide may s (get : Resolving ε σ σ) get :=
  coincide_of_run rfl rfl nofun

theorem outcome_get : (get : Resolving ε σ σ).outcome s = .ok s := rfl

end Resolving

namespace Evaluator

variable {ev : Evaluator} {s : CallStack} {name : String} {span : Span}

/-- The local values of the module. An instance without a configuration has none. -/
def locals (ev : Evaluator) : Fields LocalValue :=
  match ev.tree.descendant? ev.path.calls with
  | some t => t.module.locals
  | none => []

theorem chainLimit_eq (ev : Evaluator) : ev.chainLimit = ev.locals.length + 1 := by
  unfold chainLimit locals
  cases ev.tree.descendant? ev.path.calls <;> rfl

/-- The only fault that an evaluation has: the instance has no configuration. -/
def Unconfigured (ev : Evaluator) (fault : InternalFault) : Prop :=
  ev.tree.descendant? ev.path.calls = none ∧ ∃ what, fault = .unconfigured what ev.path

theorem unconfigured_of_module {what : String} {fault : InternalFault}
    (h : ev.module what = .error fault) : ev.Unconfigured fault := by
  unfold module at h
  split at h
  · cases h
  · next hnone =>
    cases h
    exact ⟨hnone, what, rfl⟩

theorem locals_of_unconfigured {fault : InternalFault} (h : ev.Unconfigured fault) :
    ev.locals = [] := by
  rw [locals, h.1]

theorem locals_of_module {what : String} {m : Module} (h : ev.module what = .ok m) :
    m.locals = ev.locals := by
  unfold module at h
  unfold locals
  cases ht : ev.tree.descendant? ev.path.calls with
  | some t =>
    rw [ht] at h
    cases h
    rfl
  | none =>
    rw [ht] at h
    cases h

theorem unconfigured_of_inputVariable {fault : InternalFault}
    (h : ev.inputVariable name span = .error fault) : ev.Unconfigured fault := by
  unfold inputVariable at h
  cases hm : ev.module "input variable" with
  | error e =>
    rw [hm] at h
    cases h
    exact unconfigured_of_module hm
  | ok m =>
    rw [hm] at h
    simp only [bind, Except.bind] at h
    split at h
    · cases h
    · split at h <;> cases h

theorem unconfigured_of_pathAttr {fault : InternalFault}
    (h : ev.pathAttr name span = .error fault) : ev.Unconfigured fault := by
  unfold pathAttr at h
  split at h
  · split at h <;> cases h
  split at h
  · cases hm : ev.module "path.module" with
    | error e =>
      rw [hm] at h
      cases h
      exact unconfigured_of_module hm
    | ok m =>
      rw [hm] at h
      cases h
  split at h <;> cases h

/-- The names of the local values whose resolution is not in progress. -/
def idle (ev : Evaluator) (s : CallStack) : List String :=
  ev.locals.keys.filter fun name => !s.addresses.contains (Subject.localValue name).text

/-- The stack when a local value is resolved. -/
def entered (s : CallStack) (name : String) (span : Span) : CallStack :=
  s.enter ⟨.localValue name, span⟩

variable (s name span) in
theorem length_entered : (entered s name span).length = s.length + 1 := by
  simp [entered, CallStack.enter, CallStack.length]

theorem chain_entered :
    (entered s name span).chain = s.chain ++ [(Subject.localValue name).text] :=
  rfl

/-- Of a declared local value that is entered there is one less that is idle. -/
theorem length_idle_entered (hname : name ∈ ev.locals.keys)
    (hidle : s.isActive ⟨.localValue name, span⟩ = false) :
    (ev.idle (entered s name span)).length < (ev.idle s).length := by
  have hmem : name ∈ ev.idle s := by
    refine List.mem_filter.2 ⟨hname, ?_⟩
    simpa [CallStack.isActive] using hidle
  let text := (Subject.localValue name).text
  have hsub : ev.idle (entered s name span) =
      (ev.idle s).filter fun n => !((Subject.localValue n).text == text) := by
    unfold idle
    rw [List.filter_filter]
    refine List.filter_congr fun n _ => ?_
    have hentered := s.isActive_enter ⟨.localValue name, span⟩ ⟨.localValue n, span⟩
    rw [← Bool.not_or]
    exact congrArg Bool.not hentered
  rw [hsub]
  exact List.length_filter_lt_length_iff_exists.2 ⟨name, hmem, by simp [text]⟩

variable (ev s) in
theorem length_idle_le : (ev.idle s).length ≤ ev.locals.length := by
  have h := List.length_filter_le
    (fun name => !s.addresses.contains (Subject.localValue name).text) ev.locals.keys
  rwa [Fields.keys, List.length_map] at h

/-- The stack that is left is that of before, if the reference is still there to be taken off. -/
theorem run_resolving {stack : CallStack} {m : Evaluating (Report Value)} :
    (resolving stack m).run.run s =
      match (m.run.run stack).2.pop? with
      | some rest => ((m.run.run stack).1, rest)
      | none => (.error InternalFault.emptyStack, (m.run.run stack).2) :=
  rfl

theorem coincide_resolving {may : InternalFault → Prop} {stack : CallStack}
    {m m' : Evaluating (Report Value)} (hm : Coincide may stack m m')
    (hpop : stack.pop? = some s) : Coincide may s (resolving stack m) (resolving stack m') := by
  have hrun (k : Evaluating (Report Value)) (h : k.run.run stack = (m.outcome stack, stack)) :
      (resolving stack k).run.run s = (m.outcome stack, s) := by
    rw [run_resolving, h]
    simp only [hpop]
  exact coincide_of_run (hrun m hm.left) (hrun m' hm.right) hm.fault

/-- Two ways to evaluate that coincide for each local value that can be entered. -/
def CoincideEntered (ev : Evaluator) (s : CallStack)
    (evaluate evaluate' : Expr → Evaluating (Report Value)) : Prop :=
  ∀ name span l, ev.locals.get? name = some l → s.isActive ⟨.localValue name, span⟩ = false →
    Coincide ev.Unconfigured (entered s name span) (evaluate l.expr) (evaluate' l.expr)

variable {evaluate evaluate' : Expr → Evaluating (Report Value)}

theorem coincide_localValue (h : ev.CoincideEntered s evaluate evaluate') :
    Coincide ev.Unconfigured s (ev.localValue evaluate name span)
      (ev.localValue evaluate' name span) := by
  refine coincide_bind (coincide_liftM fun e he => unconfigured_of_module he) fun m hm => ?_
  have hlocals : m.locals = ev.locals := by
    rw [outcome_eq_of_run (run_liftM _)] at hm
    exact locals_of_module hm
  split
  · exact coincide_pure _
  · rename_i l hl
    refine coincide_bind coincide_get fun stack hstack => ?_
    cases hstack
    cases ha : s.isActive ⟨.localValue name, span⟩ with
    | true =>
      rw [CallStack.push_of_isActive ha]
      exact coincide_pure _
    | false =>
      rw [CallStack.push_of_not_isActive ha]
      rw [hlocals] at hl
      exact coincide_resolving (h name span l hl ha) (CallStack.pop?_enter ha)

theorem coincide_lookup (h : ev.CoincideEntered s evaluate evaluate') (r : Reference) :
    Coincide ev.Unconfigured s (ev.lookup evaluate r) (ev.lookup evaluate' r) := by
  unfold lookup
  cases r.subject with
  | input name => exact coincide_liftM fun e he => unconfigured_of_inputVariable he
  | localValue name => exact coincide_localValue h
  | path name => exact coincide_liftM fun e he => unconfigured_of_pathAttr he
  | _ => exact coincide_pure _

/-- The computation, unless there are more references in progress than the limit. -/
def guarded {α : Type} (limit : Nat) (m : Evaluating α) : Evaluating α := do
  if limit < (← get).length then throw .endlessChain else m

theorem coincide_guarded {α : Type} {may : InternalFault → Prop} {limit : Nat}
    {m m' : Evaluating α} (hm : Coincide may s m m') (hs : s.length ≤ limit) :
    Coincide may s m (guarded limit m') := by
  have hrun : (guarded limit m').run.run s = m'.run.run s := by
    unfold guarded
    rw [run_bind]
    change (if limit < s.length then throw .endlessChain else m').run.run s = _
    rw [if_neg (Nat.not_lt.2 hs)]
  exact coincide_of_run hm.left (hrun.trans hm.right) hm.fault

/-- Evaluation that fails as soon as there are more references in progress than the limit. The
stack grows only where a local value is entered, and that is where it is looked at. -/
def evalGuarded (ev : Evaluator) (limit : Nat) : Nat → Expr → Ty → Evaluating (Report Value)
  | 0, _, _ => throw .endlessChain
  | fuel + 1, e, want =>
    (ev.scopeWith fun e => guarded limit (evalGuarded ev limit fuel e .dynamic)).eval e want

/-- The scope in which expansion is guarded. -/
def scopeGuarded (ev : Evaluator) (limit : Nat) : Scope InternalFault CallStack :=
  ev.scopeWith fun e => guarded limit (ev.evalGuarded limit (ev.chainLimit - 1) e .dynamic)

/-- What is entered leaves room for what is still idle, in the fuel and below the limit. -/
theorem coincideEntered_of_room (limit fuel : Nat)
    (hfuel : (ev.idle s).length ≤ fuel) (hlimit : s.length + (ev.idle s).length ≤ limit)
    (h : ∀ s' : CallStack, (ev.idle s').length < fuel → s'.length + (ev.idle s').length ≤ limit →
      ∀ e want, Coincide ev.Unconfigured s' (ev.evalWithin fuel e want)
        (ev.evalGuarded limit fuel e want)) :
    ev.CoincideEntered s (fun e => ev.evalWithin fuel e .dynamic)
      (fun e => guarded limit (ev.evalGuarded limit fuel e .dynamic)) := by
  intro name span l hl ha
  have hlt := length_idle_entered (Fields.mem_keys_of_get? hl) ha
  have hlen := length_entered s name span
  exact coincide_guarded (h _ (by omega) (by omega) _ _) (by omega)

theorem coincide_evalWithin {limit : Nat} (fuel : Nat) : ∀ s : CallStack,
    (ev.idle s).length < fuel → s.length + (ev.idle s).length ≤ limit → ∀ e want,
      Coincide ev.Unconfigured s (ev.evalWithin fuel e want)
        (ev.evalGuarded limit fuel e want) := by
  induction fuel with
  | zero => exact fun s hfuel => absurd hfuel (Nat.not_lt_zero _)
  | succ fuel ih =>
    intro s hfuel hlimit e want
    have hroom := coincideEntered_of_room limit fuel (Nat.lt_succ_iff.1 hfuel) hlimit ih
    exact Scope.coincide_eval (ev.scopeWith fun e => ev.evalWithin fuel e .dynamic)
      (coincide_lookup hroom) e want

variable (ev) in
theorem coincide_eval (s : CallStack) (e : Expr) (want : Ty) :
    Coincide ev.Unconfigured s (ev.eval e want)
      (ev.evalGuarded (s.length + ev.locals.length) ev.chainLimit e want) := by
  have hidle := length_idle_le ev s
  have hlimit := chainLimit_eq ev
  exact coincide_evalWithin _ s (by omega) (by omega) e want

variable (ev) in
theorem coincide_expand (s : CallStack) (body : Body) (schema : BodySchema) :
    Coincide ev.Unconfigured s (ev.expand body schema)
      ((ev.scopeGuarded (s.length + ev.locals.length)).expand body schema) := by
  have hidle := length_idle_le ev s
  have hlimit := chainLimit_eq ev
  have hidle' : (ev.idle s).length ≤ ev.chainLimit - 1 := by omega
  have hroom := coincideEntered_of_room (s.length + ev.locals.length) _ hidle' (by omega)
    (coincide_evalWithin _)
  exact Scope.coincide_expand ev.scope (coincide_lookup hroom) body schema

/-- What an evaluator can be asked for. -/
inductive Operation where
  | eval (e : Expr) (want : Ty)
  | expand (body : Body) (schema : BodySchema)

/-- What an operation gives, or why it fails. -/
inductive Answer where
  | value (r : Except InternalFault (Report Value))
  | body (r : Except InternalFault (Report Body))

namespace Answer

def fault? : Answer → Option InternalFault
  | value (.error fault) | body (.error fault) => some fault
  | value (.ok _) | body (.ok _) => none

end Answer

namespace Operation

def run (ev : Evaluator) : Operation → StateM CallStack Answer
  | eval e want => .value <$> (ev.eval e want).run
  | expand body schema => .body <$> (ev.expand body schema).run

/-- The operation where more references in progress than the limit are a fault. -/
def runGuarded (ev : Evaluator) (limit : Nat) : Operation → StateM CallStack Answer
  | eval e want => .value <$> (ev.evalGuarded limit ev.chainLimit e want).run
  | expand body schema => .body <$> ((ev.scopeGuarded limit).expand body schema).run

/-- The answer where the given stack is found. -/
def answer (ev : Evaluator) (s : CallStack) (op : Operation) : Answer := ((op.run ev).run s).1

/-- The operations one after the other, each on the stack that the one before leaves. -/
def runAll (ev : Evaluator) : List Operation → StateM CallStack (List Answer)
  | [] => pure []
  | op :: ops => do
    let a ← op.run ev
    let rest ← runAll ev ops
    pure (a :: rest)

theorem run_eq (ev : Evaluator) (op : Operation) (s : CallStack) :
    (op.run ev).run s = (op.answer ev s, s) := by
  cases op with
  | eval e want =>
    have h := (coincide_eval ev s e want).left
    change (Answer.value ((ev.eval e want).run.run s).1, ((ev.eval e want).run.run s).2) =
      (Answer.value ((ev.eval e want).run.run s).1, s)
    rw [h]
  | expand body schema =>
    have h := (coincide_expand ev s body schema).left
    change (Answer.body ((ev.expand body schema).run.run s).1,
      ((ev.expand body schema).run.run s).2) =
      (Answer.body ((ev.expand body schema).run.run s).1, s)
    rw [h]

theorem runGuarded_eq (ev : Evaluator) (op : Operation) (s : CallStack) :
    (op.runGuarded ev (s.length + ev.locals.length)).run s = (op.answer ev s, s) := by
  cases op with
  | eval e want =>
    have h := coincide_eval ev s e want
    change (Answer.value ((ev.evalGuarded _ _ e want).run.run s).1,
      ((ev.evalGuarded _ _ e want).run.run s).2) =
      (Answer.value ((ev.eval e want).outcome s), s)
    rw [h.right]
  | expand body schema =>
    have h := coincide_expand ev s body schema
    change (Answer.body (((ev.scopeGuarded _).expand body schema).run.run s).1,
      (((ev.scopeGuarded _).expand body schema).run.run s).2) =
      (Answer.body ((ev.expand body schema).outcome s), s)
    rw [h.right]

theorem unconfigured_of_fault (ev : Evaluator) (op : Operation) (s : CallStack)
    {fault : InternalFault} (h : (op.answer ev s).fault? = some fault) :
    ev.Unconfigured fault := by
  cases op with
  | eval e want =>
    refine (coincide_eval ev s e want).fault fault ?_
    change (Answer.value ((ev.eval e want).outcome s)).fault? = some fault at h
    revert h
    cases (ev.eval e want).outcome s with
    | error e =>
      rintro ⟨⟩
      rfl
    | ok r => exact nofun
  | expand body schema =>
    refine (coincide_expand ev s body schema).fault fault ?_
    change (Answer.body ((ev.expand body schema).outcome s)).fault? = some fault at h
    revert h
    cases (ev.expand body schema).outcome s with
    | error e =>
      rintro ⟨⟩
      rfl
    | ok r => exact nofun

theorem runAll_eq (ev : Evaluator) (ops : List Operation) (s : CallStack) :
    (runAll ev ops).run s = (ops.map (answer ev s), s) := by
  induction ops with
  | nil => rfl
  | cons op ops ih =>
    change (((op.run ev).run s).1 :: ((runAll ev ops).run ((op.run ev).run s).2).1,
      ((runAll ev ops).run ((op.run ev).run s).2).2) = _
    rw [run_eq, ih]
    rfl

end Operation

/-- Whatever an evaluator is asked for, with whatever references in progress: the stack is
afterwards as it was before, and meanwhile not longer by more than the number of local values that
are declared, for with this limit the operation runs just the same. It fails only where the
instance has no configuration, never because a reference is missing on the stack. So operations
that follow each other give the answers that each has for itself. -/
theorem operations_keep_stack (ev : Evaluator) (s : CallStack) :
    (∀ op : Operation, (op.run ev).run s = (op.answer ev s, s) ∧
      (op.runGuarded ev (s.length + ev.locals.length)).run s = (op.run ev).run s ∧
      ∀ fault, (op.answer ev s).fault? = some fault → ev.Unconfigured fault) ∧
    ∀ ops : List Operation,
      (Operation.runAll ev ops).run s = (ops.map (Operation.answer ev s), s) := by
  refine ⟨fun op => ⟨op.run_eq ev s, ?_, fun fault h => op.unconfigured_of_fault ev s h⟩,
    fun ops => Operation.runAll_eq ev ops s⟩
  rw [op.runGuarded_eq ev s, op.run_eq ev s]

end Evaluator

end StaticConfig
