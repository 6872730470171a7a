import StaticConfig.Fields
import StaticConfig.FileTree
import StaticConfig.Module.Reader
import StaticConfig.Options.Basic
import StaticConfig.Parser.Body
import StaticConfig.Token.Basic

/-!
Lists of installed modules. Each entry says in which directory the module for a call is found; the
key of a call is its names from the root module on, joined by dots.
-/
namespace StaticConfig

structure InstalledModule where
  key : String
  dir : String
  deriving DecidableEq, Inhabited

namespace Manifest

/-- Where the list is found, seen from the directory of the root module. -/
def path : String := ".terraform/modules/modules.json"

def moduleOf? (d : OptionDocument) : Option InstalledModule := do
  let fields ← d.fields? ["Key", "Dir"]
  let key ← (← fields.lookup "Key").text?
  let dir ← (← fields.lookup "Dir").text?
  pure ⟨key, dir⟩

def ofDocument? (d : OptionDocument) : Option (List InstalledModule) := do
  let fields ← d.fields? ["Modules"]
  let modules? (d : OptionDocument) : Option (List InstalledModule) :=
    d.list?.bind fun items => items.mapM moduleOf?
  OptionDocument.fieldOr fields "Modules" modules? []

def read? (s : String) : Option (List InstalledModule) :=
  (OptionDocument.readJson? s).bind ofDocument?

/-- The directories by key. The root module has an entry with an empty key, which is left out. -/
def directories (modules : List InstalledModule) : Fields String :=
  Fields.ofList ((modules.filter fun m => !m.key.isEmpty).map fun m => (m.key, m.dir))

end Manifest

end StaticConfig

/-!
What keeps a configuration from being loaded at all.
-/
namespace StaticConfig

inductive LoadFault where
  | directory (path : String) (fault : FileFault)
  | sourceFile (path : String) (fault : FileFault)
  | valuesFile (fault : FileFault)
  /-- A list of installed modules that cannot be read. -/
  | manifest (path : String)
  | notJson (path : String)
  /-- A file with values of variables that is JSON, but no object. -/
  | notObject (path : String)
  | malformed (error : SyntaxError)
  /-- A state that cannot arise: modules call each other deeper than paths can be long. -/
  | endless

namespace LoadFault

def message : LoadFault → String
  | directory path fault => "failed to read " ++ path ++ ": " ++ fault.message
  | sourceFile path fault => "Failed to read " ++ path ++ ". " ++ fault.message
  | valuesFile fault => fault.message
  | manifest path => "failed to read " ++ path ++ ": this is no list of modules"
  | notJson path => "failed to parse " ++ path ++ ": this is not JSON"
  | notObject path =>
    path ++ ": the root value of a variable definitions file must be an object"
  | malformed error => error.message
  | endless => "internal error: the chain of module calls does not end"

end LoadFault

end StaticConfig

/-!
Loading of modules from directories. The module of a directory is what its configuration files
declare, read in order of name; the modules it calls are found by the paths of the calls, or in the
list of installed modules. A call whose module is not there is left out.
-/
namespace StaticConfig

structure Loader where
  files : FileTree
  library : Library
  /-- The directory of the root module. -/
  base : String
  options : LoadOptions
  /-- Directories of installed modules, by the key of the call. -/
  installed : Fields String

namespace Loader

/-- The directories of installed modules, if there is a list of them. -/
def readInstalled (files : FileTree) (base : String) : Except LoadFault (Fields String) :=
  let path := Text.Path.join base Manifest.path
  match files.read path with
  | .error _ => .ok []
  | .ok text =>
    match Manifest.read? text with
    | none => .error (.manifest path)
    | some modules => .ok ((Manifest.directories modules).mapValues (Text.Path.join base))

def ofBase (files : FileTree) (library : Library) (options : LoadOptions) (base : String) :
    Except LoadFault Loader := do
  let installed ← readInstalled files base
  pure ⟨files, library, base, options, installed⟩

/-- The paths of the entries of a directory, in order of name. -/
def listed (l : Loader) (dir : String) : Except LoadFault (List String) :=
  (l.files.list dir).mapError (.directory dir)

/-- The body of the source file at the path. -/
def readBody (l : Loader) (path : String) : Except LoadFault Body := do
  let text ← (l.files.read path).mapError (.sourceFile path)
  (Parser.file ⟨path, text⟩).mapError .malformed

/-- The ending of the names of configuration files. -/
def configSuffix : String := ".tf"

/-- The path is that of a file whose name ends in one of the texts. -/
def isFileNamed (l : Loader) (suffixes : List String) (path : String) : Bool :=
  l.files.isFile path && suffixes.any fun s => Text.endsWith s (Text.Path.fileName path)

/-- The module in a directory. -/
def loadModule (l : Loader) (dir : String) : Except LoadFault (Report Module) := do
  let paths ← l.listed dir
  let bodies ← (paths.filter (l.isFileNamed [configSuffix])).mapM l.readBody
  pure (Module.ofBodies l.library dir bodies)

/-- Where the module of a call would be, if the call is followed. -/
def calledDir (l : Loader) (path : List String) (dir : String) (call : ModuleCall) :
    Option String :=
  match l.options.calls, call.source with
  | .none, _ => none
  | _, .path s => some (Text.Path.join dir s)
  | .all, _ => l.installed.get? (String.intercalate "." path)
  | .localOnly, _ => none

/-- The trees below the calls, each loaded by `load` from its path and directory. -/
def loadCalls (l : Loader) (load : List String → String → Except LoadFault (Report ModuleTree))
    (path : List String) (dir : String) :
    List (String × ModuleCall) → Except LoadFault (Report (List (String × ModuleTree)))
  | [] => .ok ⟨[], []⟩
  | (name, call) :: calls =>
    let called := path ++ [name]
    match (l.calledDir called dir call).filter l.files.isDirectory with
    | none => loadCalls l load path dir calls
    | some childDir => do
      let t ← load called childDir
      let rest ← loadCalls l load path dir calls
      let child := { t.result with source := some call.source }
      pure ⟨(name, child) :: rest.result, t.diags ++ rest.diags⟩

/-- Loading of trees of modules less than `fuel` deep. -/
def loadWithin (l : Loader) : Nat → List String → String → Except LoadFault (Report ModuleTree)
  | 0, _, _ => .error .endless
  | fuel + 1, path, dir => do
    let m ← l.loadModule dir
    let children ← l.loadCalls (l.loadWithin fuel) path dir m.result.calls
    pure ⟨⟨path, m.result, children.result, none⟩, m.diags ++ children.diags⟩

/-- No tree is deeper. A call is found in the list of installed modules only while its key is no
longer than the longest one there, and each path of a call makes the path of the directory
longer. -/
def depthLimit (l : Loader) : Nat :=
  (l.installed.keys.map String.length).foldl max 0 + FileTree.pathLimit + 3

/-- The root module with the modules it calls. -/
def load (l : Loader) : Except LoadFault (Report ModuleTree) :=
  l.loadWithin l.depthLimit [] l.base

end Loader

end StaticConfig
