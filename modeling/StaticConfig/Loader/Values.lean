import StaticConfig.Loader.Basic

/-!
Values for the variables of the root module. They come from files, which are read one after the
other, and then from overrides; a later value replaces an earlier one. Names that the root module
does not declare are reported and left out.
-/
namespace StaticConfig.Loader

def undeclared (name origin : String) : Diagnostic :=
  ⟨.warning, .undeclaredSymbol none, "Value for undeclared variable",
    "The root module does not declare a variable named " ++ Text.inspect name
      ++ " but a value was found in " ++ origin ++ ".", none⟩

def unexpectedBlock (b : Block) : Diagnostic :=
  .errorAt .decode "Unexpected block"
    ("Blocks are not allowed in a variable definitions file; found " ++ Text.inspect b.type
      ++ ".") b.definition

/-- The values of constant attributes. One that cannot be evaluated is left out. -/
def constants (library : Library) : List (String × Attribute) → Report (Fields Value)
  | [] => pure []
  | (name, a) :: rest =>
    let r := Eval.constant library a.expr
    let more := constants library rest
    if Diagnostics.hasErrors r.diags then ⟨more.result, r.diags ++ more.diags⟩
    else ⟨(name, r.result) :: more.result, r.diags ++ more.diags⟩

/-- The values that a body defines by its attributes. -/
def definedValues (library : Library) (b : Body) : Report (Fields Value) := do
  Report.tell (b.blocks.map unexpectedBlock)
  constants library b.attributes

/-- The values that the members of a JSON object define. -/
def readJsonValues (l : Loader) (path : String) : Except LoadFault (Fields Value) := do
  let text ← (l.files.read path).mapError .valuesFile
  match Json.read? text with
  | none => .error (.notJson path)
  | some (.object members) => .ok (Fields.ofList (Json.toFields members))
  | some _ => .error (.notObject path)

/-- The values that a file defines. -/
def readValues (l : Loader) (path : String) : Except LoadFault (Report (Fields Value)) :=
  if Text.endsWith ".json" (Text.Path.fileName path) then do
    let values ← l.readJsonValues path
    pure ⟨values, []⟩
  else do
    let body ← l.readBody path
    pure (definedValues l.library body)

/-- Files in the directory of the root module that are always read, and read first. -/
def standardFiles : List String := ["terraform.tfvars", "terraform.tfvars.json"]

/-- Endings of the names of further files that are always read. -/
def automaticSuffixes : List String := [".auto.tfvars", ".auto.tfvars.json"]

/-- The files with values of variables, in the order in which they are read. -/
def valueFiles (l : Loader) : Except LoadFault (List String) := do
  let standard := (standardFiles.map (Text.Path.join l.base)).filter l.files.isFile
  let paths ← l.listed l.base
  let automatic := paths.filter (l.isFileNamed automaticSuffixes)
  let extra := l.options.variableFiles.map (Text.Path.join l.base)
  pure (standard ++ automatic ++ extra)

/-- Adds the values of declared variables, which replace those of the same name. -/
def addValues (m : Module) (origin : String) (values : Fields Value) :
    List (String × Value) → Report (Fields Value)
  | [] => pure values
  | (name, v) :: rest =>
    if m.inputs.contains name then addValues m origin (values.insert name v) rest
    else do
      Report.tell [undeclared name origin]
      addValues m origin values rest

def addFiles (l : Loader) (m : Module) (values : Fields Value) :
    List String → Except LoadFault (Report (Fields Value))
  | [] => .ok ⟨values, []⟩
  | path :: paths => do
    let found ← l.readValues path
    let added := addValues m path values found.result
    let rest ← addFiles l m added.result paths
    pure ⟨rest.result, found.diags ++ added.diags ++ rest.diags⟩

def badOverride (text : String) : Diagnostic :=
  ⟨.error, .decode, "Invalid -var option",
    "The given -var option " ++ Text.inspect text ++ " is not correctly specified. Must be a"
      ++ " variable name and value separated by an equals sign, like -var=\"key=value\".", none⟩

/-- The name and the value of an override. -/
def splitOverride? (text : String) : Option (String × String) :=
  match Text.splitOnce '=' text.toList with
  | some ([], _) => none
  | some (name, value) => some (String.ofList name, String.ofList value)
  | none => none

/-- A variable of the type takes an override as it is written. -/
def takesText : Ty → Bool
  | .dynamic => true
  | ty => ty.isPrimitive

/-- The value of an override. Where the type is not that of a simple value it is an expression. -/
def overrideValue (library : Library) (name text : String) (ty : Ty) :
    Except LoadFault (Report Value) :=
  if takesText ty then .ok ⟨.string text, []⟩
  else
    match Parser.expression ⟨"<value for var." ++ name ++ ">", text⟩ with
    | .ok e => .ok (Eval.constant library e)
    | .error e => .error (.malformed e)

def addOverrides (library : Library) (m : Module) (values : Fields Value) :
    List String → Except LoadFault (Report (Fields Value))
  | [] => .ok ⟨values, []⟩
  | text :: texts =>
    match splitOverride? text with
    | none => do
      let rest ← addOverrides library m values texts
      pure ⟨rest.result, badOverride text :: rest.diags⟩
    | some (name, value) =>
      match m.inputs.get? name with
      | none => do
        let rest ← addOverrides library m values texts
        pure ⟨rest.result, undeclared name "the command line" :: rest.diags⟩
      | some v => do
        let r ← overrideValue library name value v.constraint
        let rest ← addOverrides library m (values.insert name r.result) texts
        pure ⟨rest.result, r.diags ++ rest.diags⟩

/-- The table with the values for the variables of the root module. -/
def variableTable (l : Loader) (root : Module) : Except LoadFault (Report VariableTable) := do
  let paths ← l.valueFiles
  let fromFiles ← l.addFiles root [] paths
  let all ← addOverrides l.library root fromFiles.result l.options.overrides
  pure ⟨[("", all.result)], fromFiles.diags ++ all.diags⟩

end StaticConfig.Loader
