import StaticConfig.Text.Inspect
import StaticConfig.Value.Basic

/-!
Addresses of module instances: the names of the calls that lead from the root module to a module,
each with the key of an instance of the call.
-/
namespace StaticConfig

inductive InstanceKey where
  | none
  | int (n : Int64)
  | string (s : String)
  deriving DecidableEq, Inhabited

inductive InstanceKeyFault where
  | notWhole (n : Number)
  | wrongType (ty : Ty)

namespace InstanceKeyFault

def message : InstanceKeyFault → String
  | notWhole n => "instance key must be a whole number, not " ++ n.text
  | wrongType ty => "instance key must be a number or a string, not " ++ ty.name

end InstanceKeyFault

namespace InstanceKey

def text : InstanceKey → String
  | none => ""
  | int n => "[" ++ toString n.toInt ++ "]"
  | string s => "[" ++ Text.inspect s ++ "]"

def ofValue : Value → Except InstanceKeyFault InstanceKey
  | .null _ => .ok none
  | .number n =>
    match n.toInt? with
    | some i => .ok (int i)
    | .none => .error (.notWhole n)
  | .string s => .ok (string s)
  | v => .error (.wrongType v.ty)

end InstanceKey

structure InstanceStep where
  name : String
  key : InstanceKey
  deriving DecidableEq, Inhabited

/-- The steps from the root module to an instance of a module. The root has none. -/
structure ModuleInstance where
  steps : List InstanceStep
  deriving DecidableEq, Inhabited

namespace ModuleInstance

def root : ModuleInstance := ⟨[]⟩

def isRoot (m : ModuleInstance) : Bool := m.steps.isEmpty

def child (m : ModuleInstance) (name : String) (key : InstanceKey) : ModuleInstance :=
  ⟨m.steps ++ [⟨name, key⟩]⟩

/-- The names of the calls, without the keys of instances. -/
def calls (m : ModuleInstance) : List String :=
  m.steps.map InstanceStep.name

def text (m : ModuleInstance) : String :=
  String.intercalate "." (m.steps.map fun s => "module." ++ s.name ++ s.key.text)

theorem calls_child (m : ModuleInstance) (name : String) (key : InstanceKey) :
    (m.child name key).calls = m.calls ++ [name] := by
  simp [calls, child]

end ModuleInstance

end StaticConfig
