import StaticConfig.Evaluator

/-!
Runners: handles on instances of modules, from the root module down through the calls. The
arguments of a call are evaluated in the module that calls, and become the values of the variables
of the module that is called. A runner without an evaluator shows declarations only.
-/
namespace StaticConfig

structure Runner where
  tree : ModuleTree
  path : ModuleInstance
  evaluator : Option Evaluator

namespace Runner

/-- The runner of the root module. Root variables without a value have their defaults. -/
def root (library : Library) (tree : ModuleTree) (table : VariableTable) (session : Session) :
    Runner :=
  let table := if Fields.contains "" table then table else Fields.insert "" [] table
  ⟨tree, .root, some ⟨session, .root, tree, table, library⟩⟩

def withoutEvaluator (tree : ModuleTree) (path : ModuleInstance) : Runner := ⟨tree, path, none⟩

/-- The part of the tree below the runner's module. -/
def current (r : Runner) : Except InternalFault ModuleTree :=
  match r.tree.descendant? r.path.calls with
  | some t => .ok t
  | none => .error (.missingModule r.path)

/-- What the runner's module declares. -/
def module (r : Runner) : Except InternalFault Module := r.current.map ModuleTree.module

def eval (r : Runner) (e : Expr) (want : Ty) : Evaluating (Report Value) :=
  match r.evaluator with
  | some ev => ev.eval e want
  | none => throw .noEvaluator

/-- The body with its dynamic blocks expanded, or as it is without an evaluator. -/
def expand (r : Runner) (body : Body) (schema : BodySchema) : Evaluating (Report Body) :=
  match r.evaluator with
  | some ev => ev.expand body schema
  | none => pure ⟨body, []⟩

/-- The values of the arguments that name a variable of the module called. -/
def argumentValues (ev : Evaluator) (called : Module) :
    List (String × Attribute) → Evaluating (Report (Fields Value))
  | [] => pure ⟨[], []⟩
  | (name, a) :: rest =>
    if called.inputs.contains name then do
      let r ← ev.eval a.expr .dynamic
      let more ← argumentValues ev called rest
      pure ⟨(name, r.result) :: more.result, r.diags ++ more.diags⟩
    else argumentValues ev called rest

/-- The evaluator for the instance of a call, whose variables have the values. -/
def calledEvaluator (ev : Evaluator) (path : ModuleInstance) (values : Fields Value) :
    Evaluator :=
  { ev with path := path, table := ev.table.insert path.text values }

/-- The runner for a call, unless its module is not loaded or it stands for several
instances. -/
def child (r : Runner) (tree : ModuleTree) (name : String) (call : ModuleCall) :
    Evaluating (Report (Option Runner)) :=
  match tree.child? name with
  | none => pure ⟨none, []⟩
  | some called =>
    if call.isRepeated then pure ⟨none, []⟩
    else
      let path := r.path.child name .none
      match r.evaluator with
      | none => pure ⟨some (withoutEvaluator r.tree path), []⟩
      | some ev => do
        let values ← argumentValues ev called.module call.arguments
        pure ⟨some ⟨r.tree, path, some (calledEvaluator ev path values.result)⟩, values.diags⟩

def childrenOf (r : Runner) (tree : ModuleTree) :
    List (String × ModuleCall) → Evaluating (Report (List Runner))
  | [] => pure ⟨[], []⟩
  | (name, call) :: calls => do
    let first ← r.child tree name call
    let rest ← childrenOf r tree calls
    pure ⟨first.result.toList ++ rest.result, first.diags ++ rest.diags⟩

/-- The runners for the calls of the runner's module, in order of name. -/
def children (r : Runner) : Evaluating (Report (List Runner)) := do
  let tree ← (liftM r.current : Evaluating ModuleTree)
  r.childrenOf tree tree.module.calls

end Runner

end StaticConfig
