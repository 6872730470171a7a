import StaticConfig.Module.Reader
import StaticConfig.Proofs.Conversion.Converts
import StaticConfig.Proofs.Evaluation.Forms
import StaticConfig.Proofs.Resolution.Runners
import StaticConfig.Proofs.Scoping.Roots
import StaticConfig.Proofs.Scoping.Wanted

/-!
How the arguments of a call reach the module that is called. Those that name one of its variables
are evaluated in the calling module, and their values are the entry of the table under the path of
the new runner; all other entries stay as they are. In the new runner a variable has what it makes
of the value of its argument, and the calling runner is left as it was.
-/
namespace StaticConfig

open Resolving

namespace ModuleInstance

/-- Another part makes the text longer. -/
theorem length_intercalate_lt {part : String} (h : 0 < part.length) (parts : List String) :
    (String.intercalate "." parts).length <
      (String.intercalate "." (parts ++ [part])).length := by
  induction parts with
  | nil => simpa using h
  | cons first rest ih =>
    cases rest with
    | nil =>
      simp only [List.singleton_append, String.intercalate_cons_cons, String.intercalate_singleton,
        String.length_append]
      omega
    | cons second rest =>
      simp only [List.cons_append, String.intercalate_cons_cons, String.length_append] at ih ⊢
      omega

theorem length_text_lt (steps : List InstanceStep) (step : InstanceStep) :
    (text ⟨steps⟩).length < (text ⟨steps ++ [step]⟩).length := by
  unfold text
  rw [List.map_append]
  apply length_intercalate_lt
  have hword : "module.".length = 7 := rfl
  simp only [String.length_append]
  omega

theorem length_text_le (steps rest : List InstanceStep) :
    (text ⟨steps⟩).length ≤ (text ⟨steps ++ rest⟩).length := by
  induction rest generalizing steps with
  | nil => simp
  | cons step rest ih =>
    have hlt := length_text_lt steps step
    have hle := ih (steps ++ [step])
    rw [List.append_assoc, List.singleton_append] at hle
    omega

/-- An instance further in has another text. -/
theorem text_ne_text_child {steps : List InstanceStep} {m : ModuleInstance}
    (h : steps <+: m.steps) (name : String) (key : InstanceKey) :
    text ⟨steps⟩ ≠ (m.child name key).text := by
  obtain ⟨rest, hrest⟩ := h
  have hle := length_text_le steps rest
  rw [hrest] at hle
  have hlt := length_text_lt m.steps ⟨name, key⟩
  intro heq
  have hlength := congrArg String.length heq
  unfold child at hlength
  omega

end ModuleInstance

namespace Module

theorem sorted_declare {α : Type} {fields : Fields α} (h : fields.Sorted) (name : String) (a : α)
    (duplicate : α → Diagnostic) : (declare name a duplicate fields).result.Sorted := by
  unfold declare
  split
  · exact h
  · exact Fields.sorted_insert h name a

theorem calls_addRead {α : Type} {m : Module} {add : Module → α → Report Module}
    (hadd : ∀ a, (add m a).result.calls = m.calls) (read : Report (Option α)) :
    (m.addRead add read).result.calls = m.calls := by
  unfold addRead
  rw [Report.bind_eq]
  split
  · exact hadd _
  · rfl

theorem calls_addLocals (m : Module) (attributes : List (String × Attribute)) :
    (m.addLocals attributes).result.calls = m.calls := by
  induction attributes generalizing m with
  | nil => rfl
  | cons e rest ih => exact ih _

theorem calls_addResource (m : Module) (r : Resource) :
    (m.addResource r).result.calls = m.calls := by
  unfold addResource
  split <;> rfl

/-- A block leaves the calls as they are, unless it declares one. -/
theorem calls_addBlock (library : Library) (m : Module) (b : Block) :
    (addBlock library m b).result.calls = m.calls ∨
      ∃ call, (readCall library b).result = some call ∧
        (addBlock library m b).result.calls =
          (declare call.name call (duplicateCall call) m.calls).result := by
  unfold addBlock
  split
  · exact .inl (calls_addRead (fun _ => rfl) _)
  split
  · exact .inl (calls_addLocals _ _)
  split
  · exact .inl (calls_addRead (fun _ => rfl) _)
  split
  · cases hread : (readCall library b).result with
    | none =>
      left
      rw [addRead, Report.bind_eq, hread]
      rfl
    | some call =>
      right
      refine ⟨call, rfl, ?_⟩
      rw [addRead, Report.bind_eq, hread]
      rfl
  split
  · exact .inl (calls_addRead (calls_addResource m) _)
  split
  · exact .inl (calls_addRead (calls_addResource m) _)
  · exact .inl rfl

/-- What holds of no calls, and stays true where a call is declared, holds of the calls of every
module that is read from files. -/
theorem calls_ofBodies {library : Library} {P : Fields ModuleCall → Prop} (hnil : P [])
    (hdeclare : ∀ calls b call, P calls → (readCall library b).result = some call →
      P (declare call.name call (duplicateCall call) calls).result)
    (dir : String) (files : List Body) : P (ofBodies library dir files).result.calls := by
  have hblocks (blocks : List Block) (m : Module) (h : P m.calls) :
      P (addBlocks library m blocks).result.calls := by
    induction blocks generalizing m with
    | nil => exact h
    | cons b blocks ih =>
      refine ih _ ?_
      rcases calls_addBlock library m b with hsame | ⟨call, hread, hcalls⟩
      · rw [hsame]
        exact h
      · rw [hcalls]
        exact hdeclare _ b call h hread
  exact hblocks _ (empty dir) hnil

/-- The calls of a module that is read from files are in the order of their names. -/
theorem sorted_calls_ofBodies (library : Library) (dir : String) (files : List Body) :
    (ofBodies library dir files).result.calls.Sorted := by
  refine calls_ofBodies (P := Fields.Sorted) List.Pairwise.nil ?_ dir files
  intro calls b call h _
  exact sorted_declare h call.name call _

end Module

namespace InputVariable

/-- The value given, or the default in place of a null that the variable may not have. -/
def orDefault (x : InputVariable) (a : Value) : Value :=
  match x.default with
  | some d => if a.isNull ∧ x.nullable = false then d else a
  | none => a

/-- The value with the defaults of its attributes, unless it is null. -/
def filled (x : InputVariable) (a : Value) : Value :=
  match x.defaults with
  | some d => if a.isNull then a else d.apply a
  | none => a

/-- The report is what the variable makes of a value that it is given. -/
structure Takes (x : InputVariable) (a : Value) (r : Report Value) : Prop where
  converted : ∀ b, (x.filled (x.orDefault a)).convert x.constraint = .ok b →
    r = ⟨b.markIf x.sensitive, []⟩
  unsuitable : ∀ e, (x.filled (x.orDefault a)).convert x.constraint = .error e →
    r.result = (Value.unknown x.ty).markIf x.sensitive ∧ r.diags.hasErrors

variable {x : InputVariable} {a : Value} {r : Report Value}

/-- What a variable makes of a value is not changed where no type is asked for. -/
theorem Takes.convert_dynamic (h : x.Takes a r) : r.result.convert .dynamic = .ok r.result := by
  cases hc : (x.filled (x.orDefault a)).convert x.constraint with
  | ok b =>
    rw [h.converted b hc]
    exact Value.convert_dynamic_markIf (Value.convert_dynamic_of_convert hc)
  | error e =>
    obtain ⟨hresult, -⟩ := h.unsuitable e hc
    rw [hresult]
    apply Value.convert_dynamic_markIf
    rfl

end InputVariable

namespace Evaluator

theorem givenValue_some (x : InputVariable) (a : Value) :
    givenValue x (some a) = x.orDefault a := by
  unfold givenValue InputVariable.orDefault
  cases x.default with
  | none => rfl
  | some d => simp

theorem convertedValue_of_convert {x : InputVariable} {a b : Value}
    (h : (x.filled a).convert x.constraint = .ok b) : convertedValue x a = ⟨b, []⟩ := by
  unfold InputVariable.filled at h
  cases hd : x.defaults <;> simp only [convertedValue, hd] at h ⊢ <;> rw [h]

theorem convertedValue_of_error {x : InputVariable} {a : Value} {e : ConversionError}
    (h : (x.filled a).convert x.constraint = .error e) :
    (convertedValue x a).result = .unknown x.ty ∧ (convertedValue x a).diags.hasErrors := by
  have heq : convertedValue x a = ⟨.unknown x.ty, [.errorAt .typeMismatch "Incorrect variable type"
      ("The resolved value of variable " ++ Text.inspect x.name ++ " is not appropriate: "
        ++ e.message ++ ".") x.declared]⟩ := by
    unfold InputVariable.filled at h
    cases hd : x.defaults <;> simp only [convertedValue, hd] at h ⊢ <;> rw [h]
  rw [heq]
  exact ⟨rfl, rfl⟩

theorem takes_convertedValue (x : InputVariable) (a : Value) :
    x.Takes a ⟨(convertedValue x (x.orDefault a)).result.markIf x.sensitive,
      (convertedValue x (x.orDefault a)).diags⟩ := by
  constructor
  · intro b hb
    rw [convertedValue_of_convert hb]
  · intro e he
    obtain ⟨hresult, herrors⟩ := convertedValue_of_error he
    exact ⟨congrArg (Value.markIf x.sensitive) hresult, herrors⟩

/-- A variable with a value in the table has what it makes of this value. -/
theorem lookup_of_table {ev : Evaluator} {m : Module} {values : Fields Value} {name : String}
    {x : InputVariable} {a : Value} (hm : ev.module "input variable" = .ok m)
    (hx : m.inputs.get? name = some x) (hvalues : ev.table.get? ev.path.text = some values)
    (ha : values.get? name = some a) :
    ∃ r, x.Takes a r ∧ ∀ range evaluate (s : CallStack),
      (ev.lookup evaluate ⟨.input name, range⟩).run.run s = (.ok r, s) := by
  refine ⟨_, takes_convertedValue x a, ?_⟩
  intro range evaluate s
  have hvalue : ev.inputVariable name range =
      .ok ⟨(convertedValue x (x.orDefault a)).result.markIf x.sensitive,
        (convertedValue x (x.orDefault a)).diags⟩ := by
    unfold inputVariable
    rw [hm]
    simp only [bind, Except.bind, hx, hvalues, ha, givenValue_some]
    rfl
  unfold lookup
  simp only [hvalue]
  exact run_liftM _

/-- The expression `var.x`. -/
def variableNamed (span range : Span) (x : String) : Expr :=
  .traversal span "var" [.attr range x]

/-- The value of the expression is that of the variable, unless this has an error. -/
theorem run_eval_variableNamed {ev : Evaluator} {x : String} {r : Report Value}
    (hr : r.result.convert .dynamic = .ok r.result) (span range : Span) (s : CallStack)
    (hlookup : ∀ range evaluate,
      (ev.lookup evaluate ⟨.input x, range⟩).run.run s = (.ok r, s)) :
    (ev.eval (variableNamed span range x) .dynamic).run.run s =
      (.ok (if r.diags.hasErrors then ⟨.unknown .dynamic, r.diags⟩ else r), s) := by
  have hlimit : ∃ n, ev.chainLimit = n + 1 := by
    unfold chainLimit
    split
    · exact ⟨_, rfl⟩
    · exact ⟨0, rfl⟩
  obtain ⟨n, hn⟩ := hlimit
  unfold eval
  rw [hn, evalWithin, Scope.run_eval_eq_ok]
  refine ⟨⟨Roots.empty.insert (.input x) r.result, r.diags⟩, ?_, ?_⟩
  · have hfound := hlookup (span.through range) fun e => ev.evalWithin n e .dynamic
    change (Scope.lookupAll _ Roots.empty [] [⟨.input x, span.through range⟩]).run.run s = _
    rw [Scope.lookupAll, run_bind]
    simp only [scopeWith, Scope.ofSource]
    rw [hfound]
    rfl
  · exact Scope.conclude_attribute rfl hr span range

end Evaluator

namespace Runner

/-- The call passes the value to the variable: the module that is called has such a variable, the
call has an argument of its name that is not about the call itself, and this is its value. -/
def Passes (p : Runner) (s : CallStack) (call : ModuleCall) (called : Module) (x : String)
    (v : Value) : Prop :=
  called.inputs.contains x ∧ x ∉ ModuleCall.metaArguments ∧
    ∃ a, call.body.attribute? x = some a ∧
      ∃ ds, (p.eval a.expr .dynamic).run.run s = (.ok ⟨v, ds⟩, s)

/-- The runner `c` is what the runner `p` starts for a call: a runner of the module that is called,
whose table differs from that of `p` in the entry for the path of `c` only. -/
structure Starts (p : Runner) (ev : Evaluator) (s : CallStack) (name : String) (call : ModuleCall)
    (called : ModuleTree) (c : Runner) (inner : Evaluator) : Prop where
  path : c.path = p.path.child name .none
  evaluator : c.evaluator = some inner
  current : c.current = .ok called
  entry : ∃ values, inner.table.get? c.path.text = some values ∧
    ∀ x v, values.get? x = some v ↔ p.Passes s call called.module x v
  frame : ∀ key, key ≠ c.path.text → inner.table.get? key = ev.table.get? key
  ancestors : ∀ steps, steps <+: p.path.steps →
    inner.table.get? (ModuleInstance.text ⟨steps⟩) = ev.table.get? (ModuleInstance.text ⟨steps⟩)
  /-- How `var.x` is resolved, for whatever expression, and what it is as an expression. -/
  resolves : ∀ name x v, called.module.inputs.get? name = some x →
    p.Passes s call called.module name v → ∃ r, x.Takes v r ∧
      (∀ range evaluate (s : CallStack),
        (inner.lookup evaluate ⟨.input name, range⟩).run.run s = (.ok r, s)) ∧
      ∀ span range (s : CallStack),
        (c.eval (Evaluator.variableNamed span range name) .dynamic).run.run s =
          (.ok (if r.diags.hasErrors then ⟨.unknown .dynamic, r.diags⟩ else r), s)

/-- The call has a runner: its module is loaded, and it stands for one instance. -/
def isStarted (t : ModuleTree) (call : String × ModuleCall) : Bool :=
  (t.child? call.1).isSome && !call.2.isRepeated

namespace Runs

variable {p : Runner} {ev : Evaluator} {t : ModuleTree} {s : CallStack}

/-- The values of the arguments, by name. -/
theorem succeeds_arguments (h : p.Runs ev t) (called : Module)
    (arguments : List (String × Attribute)) :
    Succeeds s (fun values => ∀ x v, Fields.get? x values.result = some v ↔
        called.inputs.contains x ∧ ∃ a, Fields.get? x arguments = some a ∧
          ∃ ds, (p.eval a.expr .dynamic).run.run s = (.ok ⟨v, ds⟩, s))
      (argumentValues ev called arguments) := by
  induction arguments with
  | nil =>
    apply succeeds_pure
    intro x v
    simp [Fields.get?]
  | cons first rest ih =>
    obtain ⟨name, a⟩ := first
    rw [argumentValues]
    by_cases hname : called.inputs.contains name
    · rw [if_pos hname]
      obtain ⟨r, hr, -⟩ := h.succeeds_evaluator (s := s) a.expr .dynamic
      have heval : (p.eval a.expr .dynamic).run.run s = (.ok r, s) := by
        unfold eval
        rw [h.evaluator]
        exact hr
      have hfirst : Succeeds s (· = r) (ev.eval a.expr .dynamic) := ⟨r, hr, rfl⟩
      refine succeeds_bind hfirst fun r' hr' => ?_
      subst hr'
      refine succeeds_bind ih fun more hmore => succeeds_pure ?_
      intro x v
      by_cases hx : name = x
      · subst hx
        simp only [Fields.get?, if_true, Option.some.injEq]
        constructor
        · intro hv
          subst hv
          exact ⟨hname, a, rfl, r'.diags, heval⟩
        · rintro ⟨-, b, rfl, ds, hb⟩
          rw [heval] at hb
          cases hb
          rfl
      · simp only [Fields.get?, hx, if_false]
        exact hmore x v
    · rw [if_neg hname]
      refine Succeeds.mono ih fun values hvalues x v => ?_
      rw [hvalues]
      by_cases hx : name = x
      · subst hx
        simp [hname]
      · simp only [Fields.get?, hx, if_false]

theorem passes_iff {call : ModuleCall} {called : Module} {x : String} {v : Value} :
    p.Passes s call called x v ↔ called.inputs.contains x ∧
      ∃ a, Fields.get? x call.arguments = some a ∧
        ∃ ds, (p.eval a.expr .dynamic).run.run s = (.ok ⟨v, ds⟩, s) := by
  unfold Passes ModuleCall.arguments Body.attribute?
  rw [Fields.get?_filter fun name => !ModuleCall.metaArguments.contains name]
  by_cases hx : x ∈ ModuleCall.metaArguments
  · simp [hx]
  · simp [hx]

/-- What a call adds to the table is seen by the runner that is started, and nothing else. -/
theorem starts_called (h : p.Runs ev t) {name : String} {call : ModuleCall} {called : ModuleTree}
    (hcalled : t.child? name = some called) {values : Fields Value}
    (hvalues : ∀ x v, values.get? x = some v ↔ p.Passes s call called.module x v) :
    let path := p.path.child name .none
    let inner := calledEvaluator ev path values
    p.Starts ev s name call called ⟨p.tree, path, some inner⟩ inner := by
  intro path inner
  have hruns := h.runs_called hcalled values
  have hentry : inner.table.get? path.text = some values := Fields.get?_insert_self _ _ _
  have hframe (key : String) (hkey : key ≠ path.text) :
      inner.table.get? key = ev.table.get? key := Fields.get?_insert_of_ne hkey _ _
  have hmodule : inner.module "input variable" = .ok called.module := by
    unfold Evaluator.module
    rw [hruns.tree, hruns.path, hruns.found]
  refine ⟨rfl, rfl, hruns.current_eq, ⟨values, hentry, hvalues⟩, hframe, ?_, ?_⟩
  · intro steps hsteps
    exact hframe _ (ModuleInstance.text_ne_text_child hsteps name .none)
  · intro name x v hx hpasses
    obtain ⟨r, htakes, hlookup⟩ :=
      Evaluator.lookup_of_table hmodule hx hentry ((hvalues name v).2 hpasses)
    refine ⟨r, htakes, hlookup, ?_⟩
    intro span range s
    exact Evaluator.run_eval_variableNamed htakes.convert_dynamic span range s
      fun range evaluate => hlookup range evaluate s

/-- A call has a runner exactly when its module is loaded and it stands for one instance. -/
theorem succeeds_starts (h : p.Runs ev t) (name : String) (call : ModuleCall) :
    Succeeds s (fun found =>
        if isStarted t (name, call) then
          ∃ c called inner, found.result = some c ∧ t.child? name = some called ∧
            p.Starts ev s name call called c inner
        else found.result = none)
      (p.child t name call) := by
  unfold child isStarted
  cases hcalled : t.child? name with
  | none => exact succeeds_pure rfl
  | some called =>
    by_cases hrepeated : call.isRepeated
    · simp only [hrepeated, if_true]
      exact succeeds_pure rfl
    · simp only [hrepeated, h.evaluator]
      refine succeeds_bind (h.succeeds_arguments called.module call.arguments) ?_
      intro values hvalues
      apply succeeds_pure
      refine ⟨_, called, _, rfl, rfl, h.starts_called hcalled ?_⟩
      intro x v
      rw [hvalues, passes_iff]

theorem succeeds_startsOf (h : p.Runs ev t) (calls : List (String × ModuleCall)) :
    Succeeds s (fun found => List.Forall₂
        (fun call c => ∃ called inner, t.child? call.1 = some called ∧
          p.Starts ev s call.1 call.2 called c inner)
        (calls.filter (isStarted t)) found.result)
      (p.childrenOf t calls) := by
  induction calls with
  | nil => exact succeeds_pure .nil
  | cons call calls ih =>
    refine succeeds_bind (h.succeeds_starts call.1 call.2) fun first hfirst => ?_
    refine succeeds_bind ih fun rest hrest => succeeds_pure ?_
    by_cases hstarted : isStarted t call
    · rw [if_pos hstarted] at hfirst
      obtain ⟨c, called, inner, hresult, hstarts⟩ := hfirst
      rw [hresult, List.filter_cons_of_pos hstarted]
      exact .cons ⟨called, inner, hstarts⟩ hrest
    · rw [if_neg hstarted] at hfirst
      rw [hfirst, List.filter_cons_of_neg hstarted]
      exact hrest

end Runs

variable {library : Library} {tree : ModuleTree} {table : VariableTable} {session : Session}
  {p : Runner} {s : CallStack}

/-- A runner starts one runner for each call whose module is loaded and that stands for one
instance, in the order of their names. The arguments reach the variables of the module that is
called, no other entry of the table changes, and the runner answers afterwards as it did before. -/
theorem starts_of_obtained (h : Obtained library tree table session p s) :
    ∃ ev t found, p.evaluator = some ev ∧ p.current = .ok t ∧
      p.children.run.run s = (.ok found, s) ∧
      List.Forall₂
        (fun call c => ∃ called inner, t.child? call.1 = some called ∧
          p.Starts ev s call.1 call.2 called c inner)
        (t.module.calls.filter (isStarted t)) found.result ∧
      (t.module.calls.Sorted → Fields.Sorted (t.module.calls.filter (isStarted t))) ∧
      ∀ e want, (p.eval e want).run.run (p.children.run.run s).2 =
        (p.eval e want).run.run s := by
  obtain ⟨-, ev, t, hruns⟩ := h.runs
  obtain ⟨found, hfound, hstarts⟩ := hruns.succeeds_startsOf (s := s) t.module.calls
  have hrun : p.children.run.run s = (.ok found, s) := by
    unfold children
    rw [hruns.current_eq, run_bind, run_liftM]
    exact hfound
  refine ⟨ev, t, found, hruns.evaluator, hruns.current_eq, hrun, hstarts, ?_, ?_⟩
  · intro hsorted
    exact Fields.sorted_filter hsorted _
  · intro e want
    rw [hrun]

/-- A zone that may not be null and is not shown. -/
def zone : InputVariable :=
  { (default : InputVariable) with
    name := "zone", default := some (.string "z"), ty := .string, constraint := .string
    nullable := false, sensitive := true }

/-- A module that calls another one three times: for two instances, without the module being there,
and with no value for its zone. -/
def threeCalls : ModuleTree :=
  let network : ModuleTree :=
    ⟨["network"], { Module.empty "network" with inputs := [("zone", zone)] }, [],
      some (.path "./network")⟩
  let argument (name : String) (v : Value) : String × Attribute :=
    (name, ⟨default, default, name, .literal default v⟩)
  let call : ModuleCall := { (default : ModuleCall) with name := "network" }
  let arguments : Body :=
    ⟨default, [argument "size" (.string "3"), argument "source" (.string "./network"),
      argument "zone" (.null .dynamic)], []⟩
  ⟨[], { Module.empty "." with
      calls := [("both", { call with count := some (.literal default (Value.ofNat 2)) }),
        ("lost", call), ("network", { call with body := arguments })] },
    [("both", network), ("network", network)], none⟩

/-- Only the last call has a runner, whose zone is the default. -/
theorem starts_of_obtained_network :
    let session : Session := ⟨"default", "", .ok "/"⟩
    let start := root (fun _ _ => none) threeCalls [] session
    ∃ found c inner, start.children.run.run .empty = (.ok found, .empty) ∧ found.result = [c] ∧
      c.path.text = "module.network" ∧ c.evaluator = some inner ∧
      inner.table.get? "" = some [] ∧
      (∃ values, inner.table.get? "module.network" = some values ∧
        values.get? "zone" = some (.null .dynamic) ∧ ∀ v, values.get? "size" ≠ some v) ∧
      (c.eval (Evaluator.variableNamed default default "zone") .dynamic).run.run .empty =
        (.ok ⟨.sensitive (.string "z"), []⟩, .empty) := by
  intro session start
  have hroot : Obtained (fun _ _ => none) threeCalls [] session start .empty := .root
  obtain ⟨ev, t, found, hev, ht, hrun, hstarts, -, -⟩ := starts_of_obtained hroot
  cases hev
  cases ht
  cases hrun
  cases hstarts with
  | cons hnetwork hrest =>
    cases hrest
    obtain ⟨called, inner, hcalled, hstarts⟩ := hnetwork
    cases hcalled
    have hinner := hstarts.evaluator
    cases hinner
    obtain ⟨values, hvalues, hentry⟩ := hstarts.entry
    have hzone : values.get? "zone" = some (.null .dynamic) :=
      (hentry "zone" (.null .dynamic)).2 ⟨rfl, by decide, _, rfl, [], rfl⟩
    have hsize (v : Value) : values.get? "size" ≠ some v := by
      intro hv
      obtain ⟨hdeclared, -⟩ := (hentry "size" v).1 hv
      cases hdeclared
    obtain ⟨r, htakes, -, heval⟩ :=
      hstarts.resolves "zone" zone (.null .dynamic) rfl ((hentry _ _).1 hzone)
    have hr : r = ⟨.sensitive (.string "z"), []⟩ := htakes.converted (.string "z") rfl
    subst hr
    have hframe := hstarts.frame "" (by decide)
    exact ⟨_, _, _, rfl, rfl, rfl, rfl, hframe.trans rfl, ⟨values, hvalues, hzone, hsize⟩,
      heval default default .empty⟩

end Runner

end StaticConfig
