import StaticConfig.Double.Basic

/-!
Decimal digits of doubles: the fewest digits that read back as the same double, and a given
number of places rounded exactly.
-/
namespace StaticConfig.Double

/-- The number `digits * 10 ^ exponent`. -/
structure Decimal where
  digits : Nat
  exponent : Int
  deriving DecidableEq, Inhabited

/-- Which way a value in the middle between two candidates goes. -/
inductive Tie where
  | up
  | even
  deriving DecidableEq

def tenUp (e : Int) : Nat := Nat.pow 10 e.toNat

def tenDown (e : Int) : Nat := Nat.pow 10 (-e).toNat

/-- Removes zeros at the end of the digits. -/
def Decimal.strip : Nat → Decimal → Decimal
  | 0, d => d
  | fuel + 1, d =>
    if d.digits ≠ 0 ∧ d.digits % 10 = 0 then strip fuel ⟨d.digits / 10, d.exponent + 1⟩ else d

/-- The numbers that read back as `mantissa * 2 ^ exponent`, in units of a quarter of the last
place: from `low` to `high`, with the ends if `closed`. -/
structure Interval where
  low : Nat
  value : Nat
  high : Nat
  closed : Bool

def interval (mantissa : Nat) (exponent : Int) : Interval :=
  -- Below a power of two the doubles lie twice as dense.
  let below := if mantissa = hiddenBit ∧ minExponent < exponent then 1 else 2
  ⟨4 * mantissa - below, 4 * mantissa, 4 * mantissa + 2, mantissa % 2 == 0⟩

/-- The candidate on the grid of multiples of `10 ^ grid` that reads back as the double and is
nearest to it. `unit` is the binary exponent of the interval's unit. -/
def onGrid (tie : Tie) (i : Interval) (unit grid : Int) : Option Nat :=
  let a := scaleUp unit * tenDown grid
  let b := tenUp grid * scaleDown unit
  let v := i.value * a
  let below := v / b
  let inside (c : Nat) : Bool :=
    if i.closed then decide (i.low * a ≤ c * b) && decide (c * b ≤ i.high * a)
    else decide (i.low * a < c * b) && decide (c * b < i.high * a)
  let takeLow := below != 0 && inside below
  let takeHigh := inside (below + 1)
  if takeLow && takeHigh then
    let twice := 2 * (v % b)
    let upper := decide (b < twice) ||
      (twice == b && (match tie with | .up => true | .even => below % 2 == 1))
    some (if upper then below + 1 else below)
  else if takeLow then some below
  else if takeHigh then some (below + 1)
  else none

/-- The least `e` with `mantissa * 2 ^ exponent < 10 ^ e`, for a positive mantissa. -/
def decimalSize (mantissa : Nat) (exponent : Int) : Int :=
  let guess := (Int.ofNat mantissa.log2 + exponent) * 30103 / 100000
  let fits (e : Int) : Bool :=
    decide (mantissa * scaleUp exponent * tenDown e < tenUp e * scaleDown exponent)
  if fits guess then guess else if fits (guess + 1) then guess + 1 else guess + 2

/-- Tries grids of `count` and more digits, at most seventeen. -/
def shortestFrom (tie : Tie) (i : Interval) (unit size : Int) : Nat → Nat → Decimal
  | 0, count =>
    ⟨i.value * scaleUp unit * tenDown (size - count) / (tenUp (size - count) * scaleDown unit),
      size - count⟩
  | fuel + 1, count =>
    match onGrid tie i unit (size - count) with
    | some digits => (Decimal.mk digits (size - count)).strip 400
    | none => shortestFrom tie i unit size fuel (count + 1)

/-- The fewest digits that read back as `mantissa * 2 ^ exponent`, and of those the nearest. -/
def shortest (tie : Tie) (mantissa : Nat) (exponent : Int) : Decimal :=
  if mantissa = 0 then ⟨0, 0⟩
  else shortestFrom tie (interval mantissa exponent) (exponent - 2)
    (decimalSize mantissa exponent) 17 1

/-- `mantissa * 2 ^ exponent` in multiples of `10 ^ grid`, a half going to the even one. -/
def rounded (mantissa : Nat) (exponent grid : Int) : Nat :=
  roundHalfEven (mantissa * scaleUp exponent * tenDown grid)
    (scaleDown exponent * tenUp grid)

/-- The value rounded to `count` digits, for a positive mantissa and a positive count. -/
def roundedDigits (mantissa : Nat) (exponent : Int) (count : Nat) : Decimal :=
  let grid := decimalSize mantissa exponent - count
  let digits := rounded mantissa exponent grid
  if digits = Nat.pow 10 count then ⟨Nat.pow 10 (count - 1), grid + 1⟩ else ⟨digits, grid⟩

end StaticConfig.Double

/-!
Texts of doubles: positional, with an exponent, or either by size, and with a fixed number of
places. What distinguishes one output form from another is a record of its decisions.
-/
namespace StaticConfig.Double

/-- Puts a decimal point so that `places` digits stand after it. -/
def insertPoint (digits : List Char) (places : Nat) : List Char :=
  if places = 0 then digits
  else
    let padded := List.replicate (places + 1 - digits.length) '0' ++ digits
    let whole := padded.length - places
    padded.take whole ++ '.' :: padded.drop whole

def digitsOf (n : Nat) : List Char :=
  Nat.toDigits 10 n

/-- All digits of the number, with a point only if there are places after it. -/
def positional (d : Decimal) : List Char :=
  if 0 ≤ d.exponent then digitsOf d.digits ++ List.replicate d.exponent.toNat '0'
  else insertPoint (digitsOf d.digits) (-d.exponent).toNat

/-- The first digit, the others after a point, and the power of ten after an `e`. -/
def scientific (plus : Bool) (digits : List Char) (exponent : Int) : List Char :=
  let power := exponent + Int.ofNat digits.length - 1
  let mark :=
    if power < 0 then ['e', '-'] else if plus then ['e', '+'] else ['e']
  digits.take 1 ++ (if digits.length ≤ 1 then [] else '.' :: digits.drop 1)
    ++ mark ++ digitsOf power.natAbs

/-- The decisions of an output form for finite doubles. -/
structure Form where
  tie : Tie
  /-- Decimal sizes written positionally: `10 ^ low < x < 10 ^ high`, or all of them. -/
  range : Option (Int × Int)
  /-- Whole numbers written positionally end in `.0`. -/
  pointZero : Bool
  plusExponent : Bool

/-- The form of numbers in texts: the fewest digits, never an exponent. -/
def plain : Form := ⟨.up, none, false, false⟩

/-- The form of numbers in JSON. -/
def json : Form := ⟨.even, some (-5, 16), true, true⟩

/-- The form of numbers in YAML. -/
def yaml : Form := ⟨.even, some (-5, 16), true, false⟩

def Form.writeDecimal (form : Form) (d : Decimal) : List Char :=
  let digits := digitsOf d.digits
  let size := d.exponent + Int.ofNat digits.length
  let fits := match form.range with
    | none => true
    | some (low, high) => decide (low < size) && decide (size ≤ high)
  if d.digits = 0 || fits then
    positional d ++ if form.pointZero && decide (0 ≤ d.exponent) then ['.', '0'] else []
  else scientific form.plusExponent digits d.exponent

def signed (negative : Bool) (cs : List Char) : String :=
  String.ofList (if negative then '-' :: cs else cs)

/-- The text of a double with the fewest digits that read back. -/
def Form.write (form : Form) (f : Float) : String :=
  match parts f with
  | .nan => "NaN"
  | .infinite negative => signed negative ['i', 'n', 'f']
  | .finite negative m e => signed negative (form.writeDecimal (shortest form.tie m e))

/-- Most places after the point that a double can have. -/
def maxPlaces : Nat := 1100

/-- The text with exactly `places` digits after the point. -/
def fixed (places : Nat) (f : Float) : String :=
  match parts f with
  | .nan => "NaN"
  | .infinite negative => signed negative ['i', 'n', 'f']
  | .finite negative m e =>
    let kept := min places maxPlaces
    let cs := insertPoint (digitsOf (rounded m e (-Int.ofNat kept))) kept
    let zeros := List.replicate (places - kept) '0'
    signed negative (cs ++ zeros)

/-- The text with one digit before the point, `places` after it, and an exponent. -/
def exponential (places : Nat) (f : Float) : String :=
  match parts f with
  | .nan => "NaN"
  | .infinite negative => signed negative ['i', 'n', 'f']
  | .finite negative m e =>
    let kept := min places maxPlaces
    let zeros := List.replicate (places - kept) '0'
    if m = 0 then
      let digits := List.replicate (places + 1) '0'
      signed negative (scientific false digits (-Int.ofNat places))
    else
      let d := roundedDigits m e (kept + 1)
      signed negative
        (scientific false (digitsOf d.digits ++ zeros) (d.exponent - Int.ofNat zeros.length))

end StaticConfig.Double
