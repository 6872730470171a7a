import StaticConfig.CallStack
import StaticConfig.Module.Basic
import StaticConfig.Module.Instance
import StaticConfig.Scope.Expansion
import StaticConfig.Text.Edits
import StaticConfig.Text.Pieces

/-!
Evaluation of expressions in an instance of a module. The value of a local value is that of its
expression; the call stack finds local values that depend on themselves. What only a running
infrastructure knows is unknown.
-/
namespace StaticConfig

/-- Values of input variables by module instance and name. An instance without an entry has been
given nothing; a null is a value. -/
abbrev VariableTable := Fields (Fields Value)

/-- What is known about the session. -/
structure Session where
  /-- The name of the workspace. -/
  workspace : String
  /-- The directory in which the session runs, if it is not that of the process. -/
  workingDir : String
  /-- The directory of the process, or why there is none. -/
  processDir : Except String String

/-- A state that cannot arise in a tree of loaded modules. -/
inductive InternalFault where
  | unconfigured (what : String) (path : ModuleInstance)
  | missingModule (path : ModuleInstance)
  | emptyStack
  | noEvaluator
  | endlessChain
  deriving DecidableEq

namespace InternalFault

def message (fault : InternalFault) : String :=
  "internal error: " ++ match fault with
    | unconfigured what path =>
      what ++ " read from " ++ path.text ++ ", which has no configuration"
    | missingModule path => "module " ++ path.text ++ " has no configuration"
    | emptyStack => "cannot pop from empty call stack"
    | noEvaluator => "evaluate_expr called without an evaluator"
    | endlessChain => "the chain of references does not end"

end InternalFault

/-- A computation that may refer to local values. -/
abbrev Evaluating := Resolving InternalFault CallStack

structure Evaluator where
  session : Session
  path : ModuleInstance
  tree : ModuleTree
  table : VariableTable
  library : Library

namespace Evaluator

/-- The module of the instance. -/
def module (ev : Evaluator) (what : String) : Except InternalFault Module :=
  match ev.tree.descendant? ev.path.calls with
  | some t => .ok t.module
  | none => .error (.unconfigured what ev.path)

def failed (kind : DiagnosticKind) (summary detail : String) (span : Span) : Report Value :=
  ⟨.dynamic, [.errorAt kind summary detail span]⟩

def didYouMean (suggestion : Option String) (otherwise : String) : String :=
  match suggestion with
  | some s => " Did you mean " ++ Text.inspect s ++ "?"
  | none => otherwise

def undeclaredVariable (m : Module) (name : String) (span : Span) : Report Value :=
  let suggestion := Text.suggestion name m.inputs.keys
  failed (.undeclaredSymbol suggestion) "Reference to undeclared input variable"
    ("An input variable with the name " ++ Text.inspect name ++ " has not been declared."
      ++ didYouMean suggestion (" This variable can be declared with a variable "
        ++ Text.inspect name ++ " \x7b\x7d block.")) span

/-- The value that a variable has been given, or its default. A null is replaced by the default
where the variable may not be null. -/
def givenValue (v : InputVariable) (given : Option Value) : Value :=
  match given, v.default with
  | none, some d => d
  | none, none => .unknown v.ty
  | some a, some d => if a.isNull && !v.nullable then d else a
  | some a, none => a

/-- The value converted to the type of the variable, with the defaults of its attributes. -/
def convertedValue (v : InputVariable) (a : Value) : Report Value :=
  let a := match v.defaults with
    | some d => if a.isNull then a else d.apply a
    | none => a
  match a.convert v.constraint with
  | .ok a => ⟨a, []⟩
  | .error e =>
    ⟨.unknown v.ty, [.errorAt .typeMismatch "Incorrect variable type"
      ("The resolved value of variable " ++ Text.inspect v.name ++ " is not appropriate: "
        ++ e.message ++ ".") v.declared]⟩

def inputVariable (ev : Evaluator) (name : String) (span : Span) :
    Except InternalFault (Report Value) := do
  let m ← ev.module "input variable"
  match m.inputs.get? name with
  | none => pure (undeclaredVariable m name span)
  | some v =>
    match ev.table.get? ev.path.text with
    | none => pure ⟨.unknown v.ty, []⟩
    | some values =>
      let r := convertedValue v (givenValue v (Fields.get? name values))
      pure ⟨r.result.markIf v.sensitive, r.diags⟩

def undeclaredLocal (m : Module) (name : String) (span : Span) : Report Value :=
  let suggestion := Text.suggestion name m.locals.keys
  failed (.undeclaredSymbol suggestion) "Reference to undeclared local value"
    ("A local value with the name " ++ Text.inspect name ++ " has not been declared."
      ++ didYouMean suggestion "") span

/-- The working directory of the session as an absolute path. -/
def workingDir (s : Session) : Except String String :=
  if s.workingDir.isEmpty then s.processDir.map Text.Path.normalized
  else if Text.Path.isAbsolute s.workingDir then .ok (Text.Path.normalized s.workingDir)
  else s.processDir.map fun dir => Text.Path.normalized (Text.Path.join dir s.workingDir)

def pathValue (path : String) : Report Value := ⟨.string (Text.Path.slashed path), []⟩

def pathAttr (ev : Evaluator) (name : String) (span : Span) :
    Except InternalFault (Report Value) :=
  if name = "cwd" then
    match workingDir ev.session with
    | .ok dir => .ok (pathValue dir)
    | .error reason =>
      .ok (failed .system "Failed to get working directory" ("System error: " ++ reason) span)
  else if name = "module" then do
    let m ← ev.module "path.module"
    pure (pathValue m.dir)
  else if name = "root" then .ok (pathValue ev.tree.module.dir)
  else
    let suggestion := Text.suggestion name ["cwd", "module", "root"]
    .ok (failed (.invalidAttribute suggestion) "Invalid \"path\" attribute"
      ("The \"path\" object does not have an attribute named " ++ Text.inspect name ++ "."
        ++ didYouMean suggestion "") span)

def terraformAttr (ev : Evaluator) (name : String) (span : Span) : Report Value :=
  if name = "workspace" then ⟨.string ev.session.workspace, []⟩
  else if name = "env" then
    failed .deprecatedAttribute "Invalid \"terraform\" attribute"
      ("The terraform.env attribute was deprecated and removed. Use terraform.workspace"
        ++ " instead.") span
  else
    failed (.invalidAttribute none) "Invalid \"terraform\" attribute"
      ("The \"terraform\" object does not have an attribute named " ++ Text.inspect name
        ++ ".") span

/-- Evaluates with the stack given, and takes the last reference off it afterwards, also when the
evaluation fails. -/
def resolving (stack : CallStack) (evaluate : Evaluating (Report Value)) :
    Evaluating (Report Value) :=
  ExceptT.mk fun _ =>
    let (r, stack) := evaluate.run.run stack
    match stack.pop? with
    | some rest => (r, rest)
    | none => (.error .emptyStack, stack)

/-- The value of a local value whose expression `evaluate` evaluates. The reference is on the
call stack meanwhile. -/
def localValue (ev : Evaluator) (evaluate : Expr → Evaluating (Report Value)) (name : String)
    (span : Span) : Evaluating (Report Value) := do
  let m ← (liftM (ev.module "local value") : Evaluating Module)
  match m.locals.get? name with
  | none => pure (undeclaredLocal m name span)
  | some l => do
    let (ds, stack) := (← get).push ⟨.localValue name, span⟩
    if Diagnostics.hasErrors ds then pure ⟨.dynamic, ds⟩
    else resolving stack (evaluate l.expr)

/-- The value of what a reference names. -/
def lookup (ev : Evaluator) (evaluate : Expr → Evaluating (Report Value)) (r : Reference) :
    Evaluating (Report Value) :=
  match r.subject with
  | .input name => liftM (ev.inputVariable name r.range)
  | .localValue name => ev.localValue evaluate name r.range
  | .path name => liftM (ev.pathAttr name r.range)
  | .terraform name => pure (ev.terraformAttr name r.range)
  | .count _ => pure ⟨.unknown .number, []⟩
  | _ => pure ⟨.dynamic, []⟩

/-- The scope of the instance, given how the expressions of local values are evaluated. -/
def scopeWith (ev : Evaluator) (evaluate : Expr → Evaluating (Report Value)) :
    Scope InternalFault CallStack :=
  .ofSource ⟨fun _ _ _ => [], ev.lookup evaluate⟩ ev.library

/-- Evaluation with chains of at most so many local values. -/
def evalWithin (ev : Evaluator) : Nat → Expr → Ty → Evaluating (Report Value)
  | 0, _, _ => throw .endlessChain
  | fuel + 1, e, want => (ev.scopeWith fun e => evalWithin ev fuel e .dynamic).eval e want

/-- No chain is longer: its local values are declared and differ from each other. -/
def chainLimit (ev : Evaluator) : Nat :=
  match ev.tree.descendant? ev.path.calls with
  | some t => t.module.locals.length + 1
  | none => 1

/-- The value of an expression, converted to the wanted type. -/
def eval (ev : Evaluator) (e : Expr) (want : Ty) : Evaluating (Report Value) :=
  ev.evalWithin ev.chainLimit e want

def scope (ev : Evaluator) : Scope InternalFault CallStack :=
  ev.scopeWith fun e => ev.evalWithin (ev.chainLimit - 1) e .dynamic

def expand (ev : Evaluator) (body : Body) (schema : BodySchema) : Evaluating (Report Body) :=
  ev.scope.expand body schema

end Evaluator

end StaticConfig
