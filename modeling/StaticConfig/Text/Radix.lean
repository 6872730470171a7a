/-!
Whole numbers in a base from 2 to 36: reading digits, and writing words of 64 bits.
-/
namespace StaticConfig.Text

/-- The value of a digit, where letters of either case follow the decimal digits. -/
def digitValue (c : Char) : Nat :=
  if c.isDigit then c.toNat - '0'.toNat
  else if c.isLower then c.toNat - 'a'.toNat + 10
  else if c.isUpper then c.toNat - 'A'.toNat + 10
  else 36

/-- The number with the given digits, if each is a digit of the base. -/
def readNat (base : Nat) : Nat → List Char → Option Nat
  | acc, [] => some acc
  | acc, c :: cs =>
    if digitValue c < base then readNat base (base * acc + digitValue c) cs else none

/-- A whole number with an optional sign and at least one digit. -/
def readInt (base : Nat) (s : String) : Option Int :=
  let read (cs : List Char) : Option Nat := if cs.isEmpty then none else readNat base 0 cs
  match s.toList with
  | '-' :: cs => (read cs).map fun n => -Int.ofNat n
  | '+' :: cs => (read cs).map Int.ofNat
  | cs => (read cs).map Int.ofNat

def fitsWord (i : Int) : Bool :=
  decide (-(Int.pow 2 63) ≤ i) && decide (i < Int.pow 2 63)

/-- A signed 64-bit number in the given base. -/
def readWord (base : Nat) (s : String) : Option Int64 :=
  match readInt base s with
  | some i => if fitsWord i then some (Int64.ofInt i) else none
  | none => none

/-- The bits of the number, read as an unsigned one, in the given base. -/
def writeWord (base : Nat) (n : Int64) : String :=
  String.ofList (Nat.toDigits base n.toUInt64.toNat)

end StaticConfig.Text
