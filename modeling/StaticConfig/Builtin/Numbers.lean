import StaticConfig.Builtin.Args

/-!
Functions on numbers.
-/
namespace StaticConfig.Builtin.Numbers

open StaticConfig.Builtin

def number (n : Number) : CallResult := .ok (.number n)

def abs (v : Value) : CallResult := do
  number (← asNumber v).abs

def ceil (v : Value) : CallResult := do
  number (← asNumber v).ceil

def floor (v : Value) : CallResult := do
  number (← asNumber v).floor

/-- The number that stays when each next one replaces it if it is `better`. -/
def bestFrom (better : Number → Number → Bool) : Number → List Value → Except CallError Number
  | best, [] => .ok best
  | best, v :: vs => do
    let n ← asNumber v
    bestFrom better (if better n best then n else best) vs

def best (better : Number → Number → Bool) (first : Value) (rest : List Value) : CallResult := do
  number (← bestFrom better (← asNumber first) rest)

def max (first : Value) (rest : List Value) : CallResult :=
  best (fun n best => best.lt n) first rest

def min (first : Value) (rest : List Value) : CallResult :=
  best (fun n best => n.lt best) first rest

def parseint (text base : Value) : CallResult := do
  let s ← asString text
  let base ← asWhole base
  if base < 2 ∨ 36 < base then .error .badBase
  else match Text.readWord base.toInt.toNat s with
    | some n => number (.int n)
    | none => .error (.badDigits s base.toInt)

def pow (base exponent : Value) : CallResult := do
  let b ← asNumber base
  let e ← asNumber exponent
  number (.ofFloat (Float.pow b.toFloat e.toFloat))

def signum (v : Value) : CallResult := do
  let f := (← asNumber v).toFloat
  let zero := Double.ofInt 0
  number (.int (if zero < f then 1 else if f < zero then -1 else 0))

def functions : List (String × Builtin) := [
  ("abs", unary .number abs),
  ("ceil", unary .number ceil),
  ("floor", unary .number floor),
  ("max", variadicFrom .number max),
  ("min", variadicFrom .number min),
  ("parseint", binary .number parseint),
  ("pow", binary .number pow),
  ("signum", unary .number signum)]

end StaticConfig.Builtin.Numbers
