import StaticConfig.Builtin.Collections
import StaticConfig.Builtin.Conversions
import StaticConfig.Builtin.Definitions
import StaticConfig.Builtin.Encodings
import StaticConfig.Builtin.Numbers
import StaticConfig.Builtin.Texts
import StaticConfig.Eval.Constant

/-!
The functions that can be called. What depends on the surroundings of an evaluation, the time and
fresh identifiers, is a parameter.
-/
namespace StaticConfig.Library

open StaticConfig.Builtin

/-- What an evaluation takes from its surroundings. -/
structure Ambient where
  /-- The time, as the function `timestamp` writes it. -/
  now : String
  /-- An identifier for each call of `uuid`. -/
  freshId : Span → String

def impureFunctions (ambient : Ambient) (site : Span) : List (String × Builtin) := [
  ("timestamp", (constant .string (.ok (.string ambient.now))).asImpure),
  ("uuid", (constant .string (.ok (.string (ambient.freshId site)))).asImpure)]

/-- The functions whose results depend on their arguments alone and that evaluate nothing. -/
def plainFunctions : List (String × Builtin) :=
  Collections.functions ++ Conversions.functions ++ Encodings.functions ++ Numbers.functions
    ++ Texts.functions

/-- The functions, given how they evaluate the expressions they read. -/
def withEvaluator (ambient : Ambient) (evaluate : Expr → Report Value) : Library :=
  fun site name =>
    ((plainFunctions.lookup name).or ((Definitions.functions evaluate).lookup name)).or
      ((impureFunctions ambient site).lookup name)

/-- How deep texts of definitions may be nested in each other: the expressions of one may read
another one. No memory holds so many levels, so an evaluation never gets there. -/
def depthLimit : Nat := Nat.pow 2 64

/-- The functions where definitions may be nested so deep. -/
def nested (ambient : Ambient) : Nat → Library
  | 0 => fun site name =>
    if name = "provider::terraform::decode_tfvars" then
      some (unary .dynamic fun _ => .error .nestedTooDeep)
    else withEvaluator ambient (fun _ => ⟨.dynamic, []⟩) site name
  | n + 1 => withEvaluator ambient (Eval.constant (nested ambient n))

def standard (ambient : Ambient) : Library := nested ambient depthLimit

end StaticConfig.Library
