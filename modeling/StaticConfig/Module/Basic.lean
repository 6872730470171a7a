import StaticConfig.Body
import StaticConfig.Constraint.Defaults
import StaticConfig.Reference
import StaticConfig.Text.Pieces

/-!
Where a module call finds its module: a relative path, an address in a registry, or an address
that an installer understands.
-/
namespace StaticConfig

inductive ModuleSource where
  | path (s : String)
  | registry (s : String)
  | remote (s : String)
  deriving DecidableEq, Inhabited

inductive SourceFault where
  | empty
  | absolute
  deriving DecidableEq

namespace SourceFault

def message : SourceFault → String
  | empty => "a module source address must not be empty"
  | absolute =>
    "absolute module paths are not supported; use a relative path prefixed with \"./\""

end SourceFault

namespace ModuleSource

def text : ModuleSource → String
  | path s => s
  | registry s => s
  | remote s => s

def isPath : ModuleSource → Bool
  | path _ => true
  | _ => false

/-- Texts that a relative path starts with. -/
def pathStarts : List String := ["./", "../", ".\\", "..\\"]

/-- The text before the first double slash. -/
def beforeDoubleSlash : List Char → List Char
  | '/' :: '/' :: _ => []
  | c :: cs => c :: beforeDoubleSlash cs
  | [] => []

def isNamePart (s : String) : Bool :=
  !s.isEmpty && s.toList.all fun c => c.isAlphanum || c == '-' || c == '_'

/-- Hosts that are no registries. -/
def codeHosts : List String := ["github.com", "bitbucket.org"]

/-- Three names, after a host or alone. -/
def isRegistryAddress (s : String) : Bool :=
  let cs := s.toList
  if ["::", "://", "?"].any fun mark => Text.occursIn mark.toList cs then false
  else
    match Text.split "/" (String.ofList (beforeDoubleSlash cs)) with
    | [a, b, c] => [a, b, c].all isNamePart
    | [host, a, b, c] =>
      host.toList.contains '.' && !codeHosts.contains host && [a, b, c].all isNamePart
    | _ => false

def read (s : String) : Except SourceFault ModuleSource :=
  if s.isEmpty then .error .empty
  else if pathStarts.any fun start => Text.startsWith start s then
    .ok (path (Text.replace "\\" "/" s))
  else if Text.startsWith "/" s then .error .absolute
  else if isRegistryAddress s then .ok (registry s)
  else .ok (remote s)

end ModuleSource

end StaticConfig

/-!
What a module declares, by name, and the tree of a module with the modules it calls.
-/
namespace StaticConfig

/-- An input of a module. -/
structure InputVariable where
  name : String
  description : Option String
  default : Option Value
  /-- The type of the values the variable has. -/
  ty : Ty
  /-- The type that values are converted to; it may have optional attributes. -/
  constraint : Ty
  defaults : Option Defaults
  nullable : Bool
  sensitive : Bool
  declared : Span
  deriving Inhabited

structure LocalValue where
  name : String
  expr : Expr
  declared : Span
  deriving Inhabited

structure OutputValue where
  name : String
  description : Option String
  expr : Expr
  sensitive : Bool
  declared : Span
  deriving Inhabited

structure Resource where
  mode : ResourceMode
  type : String
  name : String
  body : Body
  count : Option Expr
  forEach : Option Expr
  declared : Span
  typeSpan : Span
  deriving Inhabited

namespace Resource

/-- The key of the resource among those of its mode. -/
def key (r : Resource) : String := r.type ++ "." ++ r.name

end Resource

structure ModuleCall where
  name : String
  source : ModuleSource
  /-- The source as it is written. -/
  sourceText : String
  /-- The arguments for the module, and those about the call itself. -/
  body : Body
  count : Option Expr
  forEach : Option Expr
  declared : Span
  deriving Inhabited

namespace ModuleCall

/-- Arguments about the call, which are not passed to the module. -/
def metaArguments : List String :=
  ["source", "version", "providers", "depends_on", "count", "for_each"]

/-- The arguments for the module. -/
def arguments (c : ModuleCall) : List (String × Attribute) :=
  c.body.attributes.filter fun e => !metaArguments.contains e.1

/-- The call stands for several instances or none. -/
def isRepeated (c : ModuleCall) : Bool := c.count.isSome || c.forEach.isSome

end ModuleCall

structure Module where
  dir : String
  inputs : Fields InputVariable
  locals : Fields LocalValue
  outputs : Fields OutputValue
  calls : Fields ModuleCall
  resources : Fields Resource
  data : Fields Resource
  deriving Inhabited

namespace Module

def empty (dir : String) : Module := ⟨dir, [], [], [], [], [], []⟩

end Module

/-- A module with the modules it calls, by the name of the call. -/
structure ModuleTree where
  /-- The names of the calls from the root module to this one. -/
  path : List String
  module : Module
  children : List (String × ModuleTree)
  /-- Where the module was found; the root module has no source. -/
  source : Option ModuleSource
  deriving Inhabited

namespace ModuleTree

def ofModule (m : Module) : ModuleTree := ⟨[], m, [], none⟩

def isRoot (t : ModuleTree) : Bool := t.path.isEmpty

def child? (t : ModuleTree) (name : String) : Option ModuleTree :=
  Fields.get? name t.children

/-- The tree at the end of a path of calls. -/
def descendant? (t : ModuleTree) : List String → Option ModuleTree
  | [] => some t
  | name :: names =>
    match t.child? name with
    | some c => c.descendant? names
    | none => none

end ModuleTree

end StaticConfig
