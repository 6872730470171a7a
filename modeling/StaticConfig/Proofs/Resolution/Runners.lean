import StaticConfig.Proofs.Resolution.Frame
import StaticConfig.Runner

/-!
Runners that are obtained from the root runner. Each of them has an evaluator for a module of the
tree, with values for the variables of this module, and every use leaves the call stack as it was.
So nothing that a runner is asked for ends in an internal fault.
-/
namespace StaticConfig

namespace ModuleTree

theorem descendant?_concat (t : ModuleTree) (names : List String) (name : String) :
    t.descendant? (names ++ [name]) = (t.descendant? names).bind (·.child? name) := by
  induction names generalizing t with
  | nil =>
    simp only [List.nil_append, descendant?, Option.bind_some]
    cases t.child? name with
    | none => rfl
    | some c => rfl
  | cons first names ih =>
    rw [List.cons_append, descendant?, descendant?]
    cases t.child? first with
    | none => rfl
    | some c => exact ih c

end ModuleTree

namespace Resolving

variable {ε σ α β : Type}

/-- The computation gives a result with the property, and leaves the state as it is. -/
def Succeeds (s : σ) (P : α → Prop) (m : Resolving ε σ α) : Prop :=
  ∃ a, m.run.run s = (.ok a, s) ∧ P a

variable {s : σ} {P : α → Prop} {Q : β → Prop}

theorem succeeds_pure {a : α} (h : P a) : Succeeds s P (pure a : Resolving ε σ α) :=
  ⟨a, rfl, h⟩

theorem succeeds_bind {m : Resolving ε σ α} {f : α → Resolving ε σ β} (hm : Succeeds s P m)
    (hf : ∀ a, P a → Succeeds s Q (f a)) : Succeeds s Q (m >>= f) := by
  obtain ⟨a, hrun, ha⟩ := hm
  obtain ⟨b, hrun', hb⟩ := hf a ha
  refine ⟨b, ?_, hb⟩
  rw [run_bind, hrun]
  exact hrun'

/-- Of two computations that coincide, the first succeeds if no fault may arise. -/
theorem succeeds_of_coincide {may : ε → Prop} {m m' : Resolving ε σ α}
    (h : Coincide may s m m') (hmay : ∀ e, ¬may e) : Succeeds s (fun _ => True) m := by
  have hrun := h.left
  cases ho : m.outcome s with
  | ok a =>
    rw [ho] at hrun
    exact ⟨a, hrun, trivial⟩
  | error e => exact absurd (h.fault e ho) (hmay e)

theorem Succeeds.of_eq_ok {m : Resolving ε σ α} (h : Succeeds s P m) {a : α}
    (ha : (m.run.run s).1 = .ok a) : P a := by
  obtain ⟨b, hrun, hb⟩ := h
  rw [hrun] at ha
  exact Except.ok.inj ha ▸ hb

theorem Succeeds.state_eq {m : Resolving ε σ α} (h : Succeeds s P m) : (m.run.run s).2 = s := by
  obtain ⟨a, hrun, -⟩ := h
  rw [hrun]

theorem Succeeds.mono {P' : α → Prop} {m : Resolving ε σ α} (h : Succeeds s P m)
    (hP : ∀ a, P a → P' a) : Succeeds s P' m := by
  obtain ⟨a, hrun, ha⟩ := h
  exact ⟨a, hrun, hP a ha⟩

end Resolving

namespace Runner

open Resolving

/-- The runner has an evaluator, which belongs to its module. The tree has this module, and the
table has values for its variables. -/
structure Runs (r : Runner) (ev : Evaluator) (t : ModuleTree) : Prop where
  evaluator : r.evaluator = some ev
  tree : ev.tree = r.tree
  path : ev.path = r.path
  found : r.tree.descendant? r.path.calls = some t
  entry : ev.table.contains r.path.text = true

/-- The runner `c` is one for a call of one of the names. -/
structure Calls (r : Runner) (names : List String) (c : Runner) : Prop where
  runs : ∃ ev t, c.Runs ev t
  tree : c.tree = r.tree
  path : ∃ name ∈ names, c.path = r.path.child name .none

theorem runs_root (library : Library) (tree : ModuleTree) (table : VariableTable)
    (session : Session) : ∃ ev, (root library tree table session).Runs ev tree := by
  refine ⟨_, rfl, rfl, rfl, rfl, ?_⟩
  change Fields.contains "" (if table.contains "" then table else table.insert "" []) = true
  by_cases h : table.contains ""
  · rw [if_pos h]
    exact h
  · rw [if_neg h, Fields.contains, Fields.get?_insert_self]
    rfl

namespace Runs

variable {r : Runner} {ev : Evaluator} {t : ModuleTree} {s : CallStack}

theorem configured (h : r.Runs ev t) (fault : InternalFault) : ¬ev.Unconfigured fault := by
  intro hfault
  have hnone := hfault.1
  rw [h.tree, h.path, h.found] at hnone
  cases hnone

theorem current_eq (h : r.Runs ev t) : r.current = .ok t := by
  rw [current, h.found]

theorem module_eq (h : r.Runs ev t) : r.module = .ok t.module := by
  rw [module, h.current_eq]
  rfl

theorem succeeds_evaluator (h : r.Runs ev t) (e : Expr) (want : Ty) :
    Succeeds s (fun _ => True) (ev.eval e want) :=
  succeeds_of_coincide (Evaluator.coincide_eval ev s e want) h.configured

theorem succeeds_eval (h : r.Runs ev t) (e : Expr) (want : Ty) :
    Succeeds s (fun _ => True) (r.eval e want) := by
  rw [eval, h.evaluator]
  exact h.succeeds_evaluator e want

theorem succeeds_expand (h : r.Runs ev t) (body : Body) (schema : BodySchema) :
    Succeeds s (fun _ => True) (r.expand body schema) := by
  rw [expand, h.evaluator]
  exact succeeds_of_coincide (Evaluator.coincide_expand ev s body schema) h.configured

theorem succeeds_argumentValues (h : r.Runs ev t) (called : Module)
    (arguments : List (String × Attribute)) :
    Succeeds s (fun _ => True) (argumentValues ev called arguments) := by
  induction arguments with
  | nil => exact succeeds_pure trivial
  | cons a rest ih =>
    rw [argumentValues]
    by_cases hname : called.inputs.contains a.1
    · rw [if_pos hname]
      refine succeeds_bind (h.succeeds_evaluator a.2.expr .dynamic) fun v _ => ?_
      exact succeeds_bind ih fun more _ => succeeds_pure trivial
    · rw [if_neg hname]
      exact ih

/-- What a call adds to the path, the tree and the table fits together. -/
theorem runs_called (h : r.Runs ev t) {name : String} {called : ModuleTree}
    (hcalled : t.child? name = some called) (values : Fields Value) :
    let path := r.path.child name .none
    (⟨r.tree, path, some (calledEvaluator ev path values)⟩ : Runner).Runs
      (calledEvaluator ev path values) called := by
  intro path
  have hfound : r.tree.descendant? path.calls = some called := by
    rw [ModuleInstance.calls_child, ModuleTree.descendant?_concat, h.found]
    exact hcalled
  have hentry : (ev.table.insert path.text values).contains path.text = true := by
    rw [Fields.contains, Fields.get?_insert_self]
    rfl
  exact ⟨rfl, h.tree, rfl, hfound, hentry⟩

theorem succeeds_child (h : r.Runs ev t) {name : String} {names : List String}
    (hname : name ∈ names) (call : ModuleCall) :
    Succeeds s (fun found => ∀ c ∈ found.result, r.Calls names c) (r.child t name call) := by
  unfold child
  split
  · exact succeeds_pure nofun
  · rename_i called hcalled
    by_cases hrepeated : call.isRepeated
    · rw [if_pos hrepeated]
      exact succeeds_pure nofun
    · rw [if_neg hrepeated, h.evaluator]
      refine succeeds_bind (h.succeeds_argumentValues called.module call.arguments)
        fun values _ => ?_
      refine succeeds_pure fun c hc => ?_
      obtain rfl := Option.some.inj hc
      exact ⟨⟨_, _, h.runs_called hcalled values.result⟩, rfl, name, hname, rfl⟩

theorem succeeds_childrenOf (h : r.Runs ev t) {names : List String}
    {calls : List (String × ModuleCall)} (hnames : calls.map Prod.fst ⊆ names) :
    Succeeds s (fun found => ∀ c ∈ found.result, r.Calls names c) (r.childrenOf t calls) := by
  induction calls with
  | nil => exact succeeds_pure (List.forall_mem_nil _)
  | cons call calls ih =>
    obtain ⟨hname, hnames⟩ := List.cons_subset.1 hnames
    refine succeeds_bind (h.succeeds_child hname call.2) fun first hfirst => ?_
    refine succeeds_bind (ih hnames) fun rest hrest => succeeds_pure fun c hc => ?_
    rcases List.mem_append.1 hc with hc | hc
    · exact hfirst c (Option.mem_toList.1 hc)
    · exact hrest c hc

theorem succeeds_children (h : r.Runs ev t) :
    Succeeds s (fun found => ∀ c ∈ found.result, r.Calls t.module.calls.keys c) r.children := by
  rw [children, h.current_eq]
  have hcurrent : Succeeds s (· = t) (liftM (.ok t : Except InternalFault ModuleTree) :
      Evaluating ModuleTree) := ⟨t, rfl, rfl⟩
  refine succeeds_bind hcurrent fun tree htree => ?_
  rw [htree]
  exact h.succeeds_childrenOf (List.Subset.refl _)

end Runs

/-- The runners that are obtained from the root runner, with the references in progress: a runner
stays at hand after it is used, with what the use leaves, and its children are new ones. -/
inductive Obtained (library : Library) (tree : ModuleTree) (table : VariableTable)
    (session : Session) : Runner → CallStack → Prop
  | root : Obtained library tree table session (root library tree table session) .empty
  | eval {r : Runner} {s : CallStack} (e : Expr) (want : Ty) :
      Obtained library tree table session r s →
      Obtained library tree table session r ((r.eval e want).run.run s).2
  | expand {r : Runner} {s : CallStack} (body : Body) (schema : BodySchema) :
      Obtained library tree table session r s →
      Obtained library tree table session r ((r.expand body schema).run.run s).2
  | children {r : Runner} {s : CallStack} : Obtained library tree table session r s →
      Obtained library tree table session r (r.children.run.run s).2
  | child {r c : Runner} {s : CallStack} {found : Report (List Runner)} :
      Obtained library tree table session r s → (r.children.run.run s).1 = .ok found →
      c ∈ found.result → Obtained library tree table session c .empty

variable {library : Library} {tree : ModuleTree} {table : VariableTable} {session : Session}
  {r : Runner} {s : CallStack}

theorem Obtained.runs (h : Obtained library tree table session r s) :
    s = .empty ∧ ∃ ev t, r.Runs ev t := by
  induction h with
  | root =>
    obtain ⟨ev, hruns⟩ := runs_root library tree table session
    exact ⟨rfl, ev, tree, hruns⟩
  | eval e want _ ih =>
    obtain ⟨hs, ev, t, hruns⟩ := ih
    exact ⟨(hruns.succeeds_eval e want).state_eq.trans hs, ev, t, hruns⟩
  | expand body schema _ ih =>
    obtain ⟨hs, ev, t, hruns⟩ := ih
    exact ⟨(hruns.succeeds_expand body schema).state_eq.trans hs, ev, t, hruns⟩
  | children _ ih =>
    obtain ⟨hs, ev, t, hruns⟩ := ih
    exact ⟨hruns.succeeds_children.state_eq.trans hs, ev, t, hruns⟩
  | child _ hfound hc ih =>
    obtain ⟨-, ev, t, hruns⟩ := ih
    exact ⟨rfl, (hruns.succeeds_children.of_eq_ok hfound _ hc).runs⟩

/-- Nothing that a runner obtained from the root runner is asked for ends in a fault. It has an
evaluator, whose table has an entry for the module of the runner. -/
theorem faultless_of_obtained (h : Obtained library tree table session r s) :
    (∃ m, r.module = .ok m) ∧
    (∀ e want, ∃ v, ((r.eval e want).run.run s).1 = .ok v) ∧
    (∀ body schema, ∃ b, ((r.expand body schema).run.run s).1 = .ok b) ∧
    (∃ found, (r.children.run.run s).1 = .ok found) ∧
    ∃ ev, r.evaluator = some ev ∧ ev.path = r.path ∧ ev.table.contains r.path.text := by
  obtain ⟨-, ev, t, hruns⟩ := h.runs
  refine ⟨⟨t.module, hruns.module_eq⟩, fun e want => ?_, fun body schema => ?_, ?_,
    ev, hruns.evaluator, hruns.path, hruns.entry⟩
  · obtain ⟨v, hv, -⟩ := hruns.succeeds_eval e want
    exact ⟨v, congrArg Prod.fst hv⟩
  · obtain ⟨b, hb, -⟩ := hruns.succeeds_expand body schema
    exact ⟨b, congrArg Prod.fst hb⟩
  · obtain ⟨found, hfound, -⟩ := hruns.succeeds_children
    exact ⟨found, congrArg Prod.fst hfound⟩

/-- A module that calls another one and gives a value for its input variable. -/
def callingTree : ModuleTree :=
  let zone : InputVariable := { (default : InputVariable) with name := "zone" }
  let network : ModuleTree :=
    ⟨["network"], { Module.empty "network" with inputs := [("zone", zone)] }, [],
      some (.path "./network")⟩
  let argument : Attribute := ⟨default, default, "zone", .literal default (.string "a")⟩
  let call : ModuleCall :=
    { (default : ModuleCall) with
      name := "network", body := ⟨default, [("zone", argument)], []⟩ }
  ⟨[], { Module.empty "." with calls := [("network", call)] }, [("network", network)], none⟩

/-- The runner of the module that is called. -/
theorem faultless_of_obtained_call :
    let session : Session := ⟨"default", "", .ok "/"⟩
    let start := root (fun _ _ => none) callingTree [] session
    ∃ c found, (start.children.run.run .empty).1 = .ok found ∧ found.result = [c] ∧
      c.path.text = "module.network" ∧
      (∃ m, c.module = .ok m ∧ m.dir = "network") ∧
      (∃ found, (c.children.run.run .empty).1 = .ok found) ∧
      ∃ ev, c.evaluator = some ev ∧ ev.table.contains "module.network" := by
  intro session start
  refine ⟨_, _, rfl, rfl, rfl, ⟨_, rfl, rfl⟩, ?_⟩
  have hroot : Obtained (fun _ _ => none) callingTree [] session start .empty := .root
  have hcall := hroot.child rfl List.mem_cons_self
  obtain ⟨-, -, -, hchildren, ev, hev, -, hentry⟩ := faultless_of_obtained hcall
  exact ⟨hchildren, ev, hev, hentry⟩

end Runner

end StaticConfig
