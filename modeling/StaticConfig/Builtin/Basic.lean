import StaticConfig.Builtin.Error

/-!
Functions that expressions can call. Unless a function asks for them, it sees neither marks nor
unknown values: marks are taken off the arguments and put on the result, and a call with unknown
arguments has an unknown result.
-/
namespace StaticConfig

abbrev CallResult := Except CallError Value

structure Builtin where
  least : Nat
  /-- The greatest number of arguments, if there is one. -/
  most : Option Nat
  /-- The type of an unknown result. -/
  result : Ty
  takesUnknown : Bool
  takesMarked : Bool
  /-- The result may differ from call to call. -/
  impure : Bool
  run : List Value → CallResult

namespace Builtin

def ofRun (least : Nat) (most : Option Nat) (result : Ty) (run : List Value → CallResult) :
    Builtin :=
  ⟨least, most, result, false, false, false, run⟩

def constant (result : Ty) (run : CallResult) : Builtin :=
  ofRun 0 (some 0) result fun _ => run

def unary (result : Ty) (run : Value → CallResult) : Builtin :=
  ofRun 1 (some 1) result fun args =>
    match args with
    | a :: _ => run a
    | [] => .error (.tooFew 1 0)

def binary (result : Ty) (run : Value → Value → CallResult) : Builtin :=
  ofRun 2 (some 2) result fun args =>
    match args with
    | a :: b :: _ => run a b
    | args => .error (.tooFew 2 args.length)

def ternary (result : Ty) (run : Value → Value → Value → CallResult) : Builtin :=
  ofRun 3 (some 3) result fun args =>
    match args with
    | a :: b :: c :: _ => run a b c
    | args => .error (.tooFew 3 args.length)

def variadic (least : Nat) (result : Ty) (run : List Value → CallResult) : Builtin :=
  ofRun least none result run

/-- A function with a first argument and any number of others. -/
def variadicFrom (result : Ty) (run : Value → List Value → CallResult) : Builtin :=
  ofRun 1 none result fun args =>
    match args with
    | a :: rest => run a rest
    | [] => .error (.tooFew 1 0)

def withUnknown (f : Builtin) : Builtin :=
  { f with takesUnknown := true }

def withMarked (f : Builtin) : Builtin :=
  { f with takesMarked := true }

def asImpure (f : Builtin) : Builtin :=
  { f with impure := true }

def checkCount (f : Builtin) (count : Nat) : Except CallError Unit :=
  if count < f.least then .error (.tooFew f.least count)
  else match f.most with
    | some most => if most < count then .error (.tooMany most count) else .ok ()
    | none => .ok ()

/-- The unknown result of a call. -/
def unknown (f : Builtin) (args : List Value) : Value :=
  Value.markIf (Value.anyMark args) (.unknown f.result)

/-- Calls the function. When `pureOnly` is set an impure function is not run. -/
def call (f : Builtin) (pureOnly : Bool) (args : List Value) : CallResult := do
  f.checkCount args.length
  if f.impure && pureOnly then .ok (.unknown f.result)
  else if !f.takesUnknown && !Value.allKnown args then .ok (f.unknown args)
  else if f.takesMarked then f.run args
  else (f.run (Value.bareAll args)).map (Value.markIf (Value.anyMark args))

end Builtin

/-- The functions that can be called at a place of a source, by name. Only an impure function
may answer differently at different places. -/
abbrev Library := Span → String → Option Builtin

end StaticConfig
