import StaticConfig.Builtin.Args

/-!
Functions that convert their argument to a type, also when it is unknown, and functions that
look at or change its mark.
-/
namespace StaticConfig.Builtin.Conversions

open StaticConfig.Builtin

/-- A function that converts its argument. -/
def into (ty : Ty) : Builtin :=
  (unary ty fun v => converted v ty).withUnknown

def sensitive (v : Value) : CallResult := .ok v.mark

def nonsensitive (v : Value) : CallResult :=
  if v.isKnown && !v.isMarked then .error .notSensitive else .ok v.unmarked

def issensitive (v : Value) : CallResult :=
  if v.isMarked then .ok (.bool true)
  else if v.isKnown then .ok (.bool false)
  else .ok (.unknown .bool)

/-- A function that sees its argument with marks and unknown parts. -/
def onMarked (result : Ty) (run : Value → CallResult) : Builtin :=
  (unary result run).withMarked.withUnknown

def functions : List (String × Builtin) := [
  ("tobool", into .bool),
  ("tolist", into (.list .dynamic)),
  ("tomap", into (.map .dynamic)),
  ("tonumber", into .number),
  ("toset", into (.set .dynamic)),
  ("tostring", into .string),
  ("issensitive", onMarked .bool issensitive),
  ("nonsensitive", onMarked .dynamic nonsensitive),
  ("sensitive", onMarked .dynamic sensitive)]

end StaticConfig.Builtin.Conversions
