import StaticConfig.Double.Printer
import StaticConfig.Double.Reader
import StaticConfig.Text.Radix
import StaticConfig.Text.Ranges

/-!
Numbers of the configuration language. A whole number stays exact as long as it fits 64 bits;
every other number is a double. Operations on exact numbers fall back to doubles where the exact
result does not fit, and a double that is a small whole number becomes exact again.
-/
namespace StaticConfig

inductive Number where
  | int (n : Int64)
  | float (f : Float)
  deriving Inhabited

inductive NumberError where
  | divisionByZero
  | modulusByZero
  /-- The text is not a number. -/
  | unreadable
  deriving DecidableEq

namespace NumberError

def message : NumberError → String
  | divisionByZero => "can't divide by zero"
  | modulusByZero => "can't use modulus with zero"
  | unreadable => "a number is required"

end NumberError

namespace Number

/-- Whole doubles up to this magnitude are exact. -/
def exactLimit : Nat := Nat.pow 2 53

/-- The whole number that a double stands for, if it is within the exact limit. -/
def whole? (f : Float) : Option Int64 :=
  match Double.toInt? f with
  | some i => if i.natAbs ≤ exactLimit then some (Int64.ofInt i) else none
  | none => none

def ofFloat (f : Float) : Number :=
  match whole? f with
  | some n => int n
  | none => float f

/-- The exact number if it fits, and the double otherwise. -/
def ofExact (i : Int) (f : Float) : Number :=
  if Text.fitsWord i then int (Int64.ofInt i) else float f

def ofNat (n : Nat) : Number :=
  ofExact (Int.ofNat n) (Double.ofInt n)

def toFloat : Number → Float
  | int n => Double.ofInt n.toInt
  | float f => f

def toInt? : Number → Option Int64
  | int n => some n
  | float f => whole? f

def add : Number → Number → Number
  | int a, int b => ofExact (a.toInt + b.toInt) (toFloat (int a) + toFloat (int b))
  | a, b => ofFloat (a.toFloat + b.toFloat)

def sub : Number → Number → Number
  | int a, int b => ofExact (a.toInt - b.toInt) (toFloat (int a) - toFloat (int b))
  | a, b => ofFloat (a.toFloat - b.toFloat)

def mul : Number → Number → Number
  | int a, int b => ofExact (a.toInt * b.toInt) (toFloat (int a) * toFloat (int b))
  | a, b => ofFloat (a.toFloat * b.toFloat)

def isZero (a : Number) : Bool :=
  a.toFloat == Double.ofBits false 0

def div (a b : Number) : Except NumberError Number :=
  if b.isZero then .error .divisionByZero
  else match a, b with
    | int m, int n =>
      let q := m.toInt.tdiv n.toInt
      if m.toInt.tmod n.toInt = 0 ∧ Text.fitsWord q then .ok (int (Int64.ofInt q))
      else .ok (ofFloat (a.toFloat / b.toFloat))
    | _, _ => .ok (ofFloat (a.toFloat / b.toFloat))

/-- The remainder of the quotient rounded towards zero. -/
def mod (a b : Number) : Except NumberError Number :=
  if b.isZero then .error .modulusByZero
  else match a, b with
    | int m, int n => .ok (int (Int64.ofInt (m.toInt.tmod n.toInt)))
    | _, _ => .ok (ofFloat (Double.remainder a.toFloat b.toFloat))

def neg : Number → Number
  | int n => ofExact (-n.toInt) (-toFloat (int n))
  | float f => float (-f)

def abs : Number → Number
  | int n => if n.toInt < 0 then neg (int n) else int n
  | float f => float (if Double.isNegative f then -f else f)

def ceil (a : Number) : Number :=
  ofFloat (Double.ceil a.toFloat)

def floor (a : Number) : Number :=
  ofFloat (Double.floor a.toFloat)

/-- Equality as numbers; not-a-number differs from itself. -/
def eq : Number → Number → Bool
  | int a, int b => a == b
  | a, b => a.toFloat == b.toFloat

def lt : Number → Number → Bool
  | int a, int b => decide (a < b)
  | a, b => decide (a.toFloat < b.toFloat)

def le : Number → Number → Bool
  | int a, int b => decide (a ≤ b)
  | a, b => decide (a.toFloat ≤ b.toFloat)

def text : Number → String
  | int n => toString n.toInt
  | float f => Double.plain.write f

/-- Reads a number with blanks around it. Only finite numbers have a text that reads back. -/
def read (s : String) : Except NumberError Number :=
  let s := Text.trim s
  match Text.readWord 10 s with
  | some n => .ok (int n)
  | none =>
    match Double.read? s with
    | some f => if Double.isFinite f then .ok (ofFloat f) else .error .unreadable
    | none => .error .unreadable

end Number

end StaticConfig
