import StaticConfig.Constraint.Reader
import StaticConfig.Module.Basic
import StaticConfig.Text.Quoted

/-!
Declarations of modules, read from the blocks of their files. Of two declarations with one name
the first stays and the other is reported. Blocks of other types are left out.
-/
namespace StaticConfig.Module

def problem (summary detail : String) (span : Span) : Diagnostic :=
  .errorAt .decode summary detail span

def report {α : Type} (d : Diagnostic) : Report (Option α) := ⟨none, [d]⟩

/-- Checks that the block has one label for each of the names. -/
def checkLabels (b : Block) (names : List String) : Diagnostics :=
  let expected := toString names.length ++ " labels (" ++ String.intercalate ", " names ++ ")"
  if b.labels.length < names.length then
    [problem ("Missing name for " ++ b.type)
      ("All " ++ b.type ++ " blocks must have " ++ expected ++ ".") b.definition]
  else if names.length < b.labels.length then
    [problem ("Extraneous label for " ++ b.type)
      ("Only " ++ expected ++ " are expected for " ++ b.type ++ " blocks.")
      (b.labelSpans.getD names.length b.definition)]
  else []

def nameDetail : String :=
  "A name must start with a letter or underscore and may contain only letters, digits,"
    ++ " underscores, and dashes."

/-- Checks that the label is a name. -/
def checkName (b : Block) (index : Nat) (kind : String) : Diagnostics :=
  if Text.isIdentifier (b.labels.getD index "") then []
  else [problem ("Invalid " ++ kind ++ " name") nameDetail (b.labelSpans.getD index b.definition)]

/-- The only label of a block, if that is what it has. -/
def nameOf (b : Block) (kind : String) : Report (Option String) :=
  match checkLabels b ["name"] with
  | [] =>
    match checkName b 0 kind with
    | [] => pure b.labels.head?
    | ds => ⟨none, ds⟩
  | ds => ⟨none, ds⟩

/-- The value of a constant attribute, converted to the type. -/
def constant (library : Library) (a : Attribute) (ty : Ty) : Report (Option Value) :=
  let r := Eval.constant library a.expr
  if Diagnostics.hasErrors r.diags then ⟨none, r.diags⟩
  else match r.result.convert ty with
    | .ok v => ⟨some v, r.diags⟩
    | .error e =>
      ⟨none, r.diags ++ [problem "Unsuitable value type"
        ("Unsuitable value: " ++ e.message ++ ".") a.expr.span]⟩

def constantBool (library : Library) (b : Body) (name : String) : Report (Option Bool) :=
  match b.attribute? name with
  | some a => do
    let v ← constant library a .bool
    pure (v.bind Value.bool?)
  | none => pure none

def constantString (library : Library) (b : Body) (name : String) : Report (Option String) :=
  match b.attribute? name with
  | some a => do
    let v ← constant library a .string
    pure (v.bind Value.string?)
  | none => pure none

def badDefault (detail : String) (a : Attribute) : Diagnostic :=
  problem "Invalid default value for variable" detail a.expr.span

/-- The default of a variable, converted to its type. -/
def defaultOf (library : Library) (b : Body) (c : Constraint) (nullable : Bool) :
    Report (Option Value) :=
  match b.attribute? "default" with
  | none => pure none
  | some a =>
    let r := Eval.constant library a.expr
    if Diagnostics.hasErrors r.diags then ⟨none, r.diags⟩
    else
      let v := match c.defaults with
        | some d => d.apply r.result
        | none => r.result
      match v.convert c.ty with
      | .ok v =>
        let ds := if v.isNull && !nullable then
            [badDefault "A null default value is not valid when nullable=false." a]
          else []
        ⟨some v, r.diags ++ ds⟩
      | .error e =>
        ⟨none, r.diags ++ [badDefault ("This default value is not compatible with the variable's"
          ++ " type constraint: " ++ e.message ++ ".") a]⟩

def readVariable (library : Library) (b : Block) : Report (Option InputVariable) := do
  match ← nameOf b "variable" with
  | none => pure none
  | some name =>
    let c ← match b.body.expr? "type" with
      | some e => Constraint.ofExpr library e
      | none => pure ⟨.dynamic, none⟩
    let description ← constantString library b.body "description"
    let nullable ← constantBool library b.body "nullable"
    let sensitive ← constantBool library b.body "sensitive"
    let nullable := nullable.getD true
    let default ← defaultOf library b.body c nullable
    pure (some ⟨name, description, default, c.ty.allRequired, c.ty, c.defaults, nullable,
      sensitive.getD false, b.definition⟩)

def missingArgument (name : String) (b : Block) : Diagnostic :=
  problem "Missing required argument"
    ("The argument " ++ Text.inspect name ++ " is required, but no definition was found.")
    b.definition

def readOutput (library : Library) (b : Block) : Report (Option OutputValue) := do
  match ← nameOf b "output" with
  | none => pure none
  | some name =>
    match b.body.expr? "value" with
    | none => report (missingArgument "value" b)
    | some e => do
      let description ← constantString library b.body "description"
      let sensitive ← constantBool library b.body "sensitive"
      pure (some ⟨name, description, e, sensitive.getD false, b.definition⟩)

def readCall (library : Library) (b : Block) : Report (Option ModuleCall) := do
  match ← nameOf b "module" with
  | none => pure none
  | some name =>
    match b.body.attribute? "source" with
    | none => report (missingArgument "source" b)
    | some a => do
      match (← constant library a .string).bind Value.string? with
      | none => pure none
      | some text =>
        match ModuleSource.read text with
        | .error fault =>
          report (problem "Invalid module source address"
            ("Failed to parse module source address: " ++ fault.message) a.expr.span)
        | .ok source =>
          pure (some ⟨name, source, text, b.body, b.body.expr? "count", b.body.expr? "for_each",
            b.definition⟩)

def readResource (mode : ResourceMode) (b : Block) : Report (Option Resource) :=
  let kind := match mode with
    | .managed => "resource"
    | .data => "data source"
  match checkLabels b ["type", "name"] with
  | [] =>
    match checkName b 1 kind, b.labels, b.labelSpans with
    | [], type :: name :: _, typeSpan :: _ =>
      pure (some ⟨mode, type, name, b.body, b.body.expr? "count", b.body.expr? "for_each",
        b.definition, typeSpan⟩)
    | ds, _, _ => ⟨none, ds⟩
  | ds => ⟨none, ds⟩

/-- Adds a declaration, unless the name is taken; then `duplicate` of the declaration that has
the name is reported. -/
def declare {α : Type} (name : String) (a : α) (duplicate : α → Diagnostic) (fields : Fields α) :
    Report (Fields α) :=
  match fields.get? name with
  | some old => ⟨fields, [duplicate old]⟩
  | none => pure (fields.insert name a)

def duplicateVariable (v old : InputVariable) : Diagnostic :=
  problem "Duplicate variable declaration"
    ("A variable named " ++ Text.inspect v.name ++ " was already declared at "
      ++ old.declared.place ++ ". Variable names must be unique within a module.") v.declared

def duplicateLocal (l old : LocalValue) : Diagnostic :=
  problem "Duplicate local value definition"
    ("A local value named " ++ Text.inspect l.name ++ " was already defined at "
      ++ old.declared.place ++ ". Local value names must be unique within a module.") l.declared

def duplicateOutput (o old : OutputValue) : Diagnostic :=
  problem "Duplicate output definition"
    ("An output named " ++ Text.inspect o.name ++ " was already defined at "
      ++ old.declared.place ++ ". Output names must be unique within a module.") o.declared

def duplicateCall (c old : ModuleCall) : Diagnostic :=
  problem "Duplicate module call"
    ("A module call named " ++ Text.inspect c.name ++ " was already defined at "
      ++ old.declared.place ++ ". Module calls must have unique names within a module.") c.declared

def duplicateResource (r old : Resource) : Diagnostic :=
  let kind := match r.mode with
    | .managed => "resource"
    | .data => "data"
  problem ("Duplicate " ++ kind ++ " " ++ Text.inspect r.type ++ " configuration")
    ("A " ++ r.type ++ " " ++ kind ++ " named " ++ Text.inspect r.name
      ++ " was already declared at " ++ old.declared.place
      ++ ". Resource names must be unique per type in each module.") r.declared

def addVariable (m : Module) (v : InputVariable) : Report Module := do
  let inputs ← declare v.name v (duplicateVariable v) m.inputs
  pure { m with inputs := inputs }

def addLocal (m : Module) (l : LocalValue) : Report Module := do
  let locals ← declare l.name l (duplicateLocal l) m.locals
  pure { m with locals := locals }

def addOutput (m : Module) (o : OutputValue) : Report Module := do
  let outputs ← declare o.name o (duplicateOutput o) m.outputs
  pure { m with outputs := outputs }

def addCall (m : Module) (c : ModuleCall) : Report Module := do
  let calls ← declare c.name c (duplicateCall c) m.calls
  pure { m with calls := calls }

def addResource (m : Module) (r : Resource) : Report Module :=
  match r.mode with
  | .managed => do
    let resources ← declare r.key r (duplicateResource r) m.resources
    pure { m with resources := resources }
  | .data => do
    let data ← declare r.key r (duplicateResource r) m.data
    pure { m with data := data }

def localOf (a : Attribute) : LocalValue := ⟨a.name, a.expr, a.span⟩

def addLocals (m : Module) : List (String × Attribute) → Report Module
  | [] => pure m
  | (_, a) :: rest => do
    let m ← m.addLocal (localOf a)
    m.addLocals rest

/-- Adds what was read, if anything was. -/
def addRead {α : Type} (m : Module) (add : Module → α → Report Module)
    (read : Report (Option α)) : Report Module := do
  match ← read with
  | some a => add m a
  | none => pure m

def addBlock (library : Library) (m : Module) (b : Block) : Report Module :=
  if b.type = "variable" then m.addRead addVariable (readVariable library b)
  else if b.type = "locals" then m.addLocals b.body.attributes
  else if b.type = "output" then m.addRead addOutput (readOutput library b)
  else if b.type = "module" then m.addRead addCall (readCall library b)
  else if b.type = "resource" then m.addRead addResource (readResource .managed b)
  else if b.type = "data" then m.addRead addResource (readResource .data b)
  else pure m

def addBlocks (library : Library) (m : Module) : List Block → Report Module
  | [] => pure m
  | b :: bs => do
    let m ← addBlock library m b
    addBlocks library m bs

/-- The module that the files of a directory declare. -/
def ofBodies (library : Library) (dir : String) (files : List Body) : Report Module :=
  addBlocks library (empty dir) (files.flatMap Body.blocks)

end StaticConfig.Module
