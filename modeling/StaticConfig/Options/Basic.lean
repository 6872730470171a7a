import StaticConfig.Evaluator
import StaticConfig.Json.Reader
import StaticConfig.Yaml.Reader

/-!
Documents of options: texts, lists and records. They are written as JSON or as YAML. A record is
given by the names of its fields, or as the list of its fields in their order.
-/
namespace StaticConfig

inductive OptionDocument where
  /-- Nothing; it counts as an empty text, list or record. -/
  | blank
  | text (s : String)
  | list (items : List OptionDocument)
  | record (fields : List (String × OptionDocument))
  /-- Anything that no option is. -/
  | other
  deriving Inhabited

namespace OptionDocument

mutual

def ofJson : Json → OptionDocument
  | .string s => text s
  | .array items => list (ofJsons items)
  | .object members => record (ofMembers members)
  | _ => other

def ofJsons : List Json → List OptionDocument
  | [] => []
  | j :: js => ofJson j :: ofJsons js

def ofMembers : List (String × Json) → List (String × OptionDocument)
  | [] => []
  | (name, j) :: rest => (name, ofJson j) :: ofMembers rest

end

def readJson? (s : String) : Option OptionDocument := (Json.read? s).map ofJson

/-- The node that a node stands for. -/
def resolved (d : Yaml.Document) : Yaml.Node → Option Yaml.Node
  | .alias id => d.anchors.lookup id
  | n => some n

def keyText? (d : Yaml.Document) (n : Yaml.Node) : Option String :=
  match resolved d n with
  | some (.scalar _ s _) => some s
  | _ => none

/-- The document of a node. What is nested deeper than `depth` is no option. -/
def ofNode (d : Yaml.Document) : Nat → Yaml.Node → OptionDocument
  | 0, _ => other
  | depth + 1, n =>
    match resolved d n with
    | some (.scalar _ s plain) => if plain && s.isEmpty then blank else text s
    | some (.sequence _ items) => list (items.map (ofNode d depth))
    | some (.mapping _ entries) =>
      let fields? := entries.mapM fun e => (keyText? d e.1).map fun key => (key, ofNode d depth e.2)
      match fields? with
      | some fields => record fields
      | none => other
    | _ => other

/-- Options are texts in lists in a record, which a few levels hold. -/
def depthLimit : Nat := 8

def readYaml? (s : String) : Option OptionDocument :=
  (Yaml.Document.read? s).map fun d =>
    match d.root with
    | some n => ofNode d depthLimit n
    | none => blank

def text? : OptionDocument → Option String
  | blank => some ""
  | text s => some s
  | _ => none

def list? : OptionDocument → Option (List OptionDocument)
  | blank => some []
  | list items => some items
  | _ => none

def texts? (d : OptionDocument) : Option (List String) := d.list?.bind fun items => items.mapM text?

/-- The fields of a record by name. None of the names may occur twice; other names are ignored. -/
def fields? (names : List String) : OptionDocument → Option (List (String × OptionDocument))
  | blank => some []
  | record fields =>
    let known := fields.filter fun f => names.contains f.1
    if (known.map Prod.fst).Nodup then some known else none
  | list items => if items.length ≤ names.length then some (names.zip items) else none
  | _ => none

/-- The field of the name as `read` reads it, or the default if there is no such field. -/
def fieldOr {α : Type} (fields : List (String × OptionDocument)) (name : String)
    (read : OptionDocument → Option α) (default : α) : Option α :=
  match fields.lookup name with
  | some d => read d
  | none => some default

end OptionDocument

end StaticConfig

/-!
Options: which module calls are followed, where values of variables come from, and what is known
about the session. An option that is not given has its default.
-/
namespace StaticConfig

/-- The module calls that are followed. -/
inductive CallPolicy where
  | all
  | localOnly
  | none
  deriving DecidableEq, Inhabited

/-- A text that names no policy. -/
structure CallPolicyFault where
  text : String

namespace CallPolicyFault

def message (fault : CallPolicyFault) : String :=
  fault.text ++ " is invalid call module type. Allowed values are: all, local, none"

end CallPolicyFault

namespace CallPolicy

def text : CallPolicy → String
  | all => "all"
  | localOnly => "local"
  | none => "none"

def read (s : String) : Except CallPolicyFault CallPolicy :=
  if s = "all" then .ok all
  else if s = "local" then .ok localOnly
  else if s = "none" then .ok none
  else .error ⟨s⟩

theorem read_text (p : CallPolicy) : read p.text = .ok p := by
  cases p <;> rfl

end CallPolicy

structure LoadOptions where
  calls : CallPolicy
  /-- Files with values of variables, seen from the directory of the root module. -/
  variableFiles : List String
  /-- Values of variables as `name=value`, which replace those from files. -/
  overrides : List String
  deriving Inhabited

namespace LoadOptions

def initial : LoadOptions := ⟨.all, [], []⟩

def ofDocument? (d : OptionDocument) : Option LoadOptions := do
  let fields ← d.fields? ["call_module_type", "var_files", "variables"]
  let policy? (d : OptionDocument) : Option CallPolicy :=
    d.text?.bind fun s => (CallPolicy.read s).toOption
  let calls ← OptionDocument.fieldOr fields "call_module_type" policy? initial.calls
  let files ← OptionDocument.fieldOr fields "var_files" OptionDocument.texts? initial.variableFiles
  let overrides ←
    OptionDocument.fieldOr fields "variables" OptionDocument.texts? initial.overrides
  pure ⟨calls, files, overrides⟩

def readJson? (s : String) : Option LoadOptions := (OptionDocument.readJson? s).bind ofDocument?

def readYaml? (s : String) : Option LoadOptions := (OptionDocument.readYaml? s).bind ofDocument?

end LoadOptions

namespace Session

/-- The session of a process that has been told nothing. -/
def initial (processDir : Except String String) : Session := ⟨"default", "", processDir⟩

def ofDocument? (processDir : Except String String) (d : OptionDocument) : Option Session := do
  let s := initial processDir
  let fields ← d.fields? ["env", "original_working_dir"]
  let workspace ← OptionDocument.fieldOr fields "env" OptionDocument.text? s.workspace
  let dir ← OptionDocument.fieldOr fields "original_working_dir" OptionDocument.text? s.workingDir
  pure { s with workspace := workspace, workingDir := dir }

def readJson? (processDir : Except String String) (s : String) : Option Session :=
  (OptionDocument.readJson? s).bind (ofDocument? processDir)

end Session

end StaticConfig
