/-!
Doubles as exact rational numbers. `parts` takes a double apart into a sign, a mantissa and a
power of two, and `nearest` finds the double nearest to a quotient, a half going to the even
mantissa. Roundings towards the floor and the ceiling and remainders are computed exactly.
-/
namespace StaticConfig.Double

inductive Parts where
  | nan
  | infinite (negative : Bool)
  /-- The number `mantissa * 2 ^ exponent`, or its negative. -/
  | finite (negative : Bool) (mantissa : Nat) (exponent : Int)
  deriving DecidableEq

def hiddenBit : Nat := Nat.pow 2 52

/-- The exponent of the smallest positive double. -/
def minExponent : Int := -1074

def parts (f : Float) : Parts :=
  let bits := f.toBits.toNat
  let negative := bits / Nat.pow 2 63 % 2 == 1
  let exponent := bits / hiddenBit % 2048
  let fraction := bits % hiddenBit
  if exponent = 2047 then
    if fraction = 0 then .infinite negative else .nan
  else if exponent = 0 then .finite negative fraction minExponent
  else .finite negative (fraction + hiddenBit) (Int.ofNat exponent - 1075)

def isNegative (f : Float) : Bool :=
  match parts f with
  | .nan => false
  | .infinite negative => negative
  | .finite negative _ _ => negative

def isFinite (f : Float) : Bool :=
  match parts f with
  | .finite _ _ _ => true
  | _ => false

def ofBits (negative : Bool) (bits : Nat) : Float :=
  Float.ofBits (UInt64.ofNat ((if negative then Nat.pow 2 63 else 0) + bits))

def infinity (negative : Bool) : Float :=
  ofBits negative (2047 * hiddenBit)

def nan : Float :=
  ofBits false (2047 * hiddenBit + hiddenBit / 2)

/-- Two to the given power, as a factor for numerators, and its inverse for denominators. -/
def scaleUp (e : Int) : Nat := Nat.pow 2 e.toNat

def scaleDown (e : Int) : Nat := Nat.pow 2 (-e).toNat

/-- The quotient rounded to the nearest natural number, a half going to the even one. -/
def roundHalfEven (num den : Nat) : Nat :=
  let q := num / den
  let r := num % den
  if den < 2 * r || (2 * r == den && q % 2 == 1) then q + 1 else q

/-- The double nearest to `num / den`, for a positive `den`. -/
def nearest (negative : Bool) (num den : Nat) : Float :=
  if num = 0 then ofBits negative 0
  else
    let size : Int := Int.ofNat num.log2 - Int.ofNat den.log2
    let low := max (size - 53) minExponent
    let exponent :=
      if num * scaleDown low / (den * scaleUp low) < 2 * hiddenBit then low else low + 1
    let mantissa := roundHalfEven (num * scaleDown exponent) (den * scaleUp exponent)
    -- The bits of consecutive doubles are consecutive, so a mantissa that was rounded up to
    -- the next power of two carries into the exponent.
    let bits := mantissa + (exponent - minExponent).toNat * hiddenBit
    if 2047 * hiddenBit ≤ bits then infinity negative else ofBits negative bits

def ofInt (i : Int) : Float :=
  nearest (decide (i < 0)) i.natAbs 1

/-- Numerator and denominator of `mantissa * 2 ^ exponent`. -/
def ratio (mantissa : Nat) (exponent : Int) : Nat × Nat :=
  (mantissa * scaleUp exponent, scaleDown exponent)

/-- The finite double as a whole number, if it is one. -/
def toInt? (f : Float) : Option Int :=
  match parts f with
  | .finite negative m e =>
    let (num, den) := ratio m e
    if num % den = 0 then
      let n := Int.ofNat (num / den)
      some (if negative then -n else n)
    else none
  | _ => none

/-- Rounds a finite double to a whole number of the same sign, up in magnitude when `away`. -/
def roundMagnitude (away : Bool → Bool) (f : Float) : Float :=
  match parts f with
  | .finite negative m e =>
    let (num, den) := ratio m e
    let n := num / den + if away negative && num % den != 0 then 1 else 0
    nearest negative n 1
  | _ => f

/-- The greatest whole number that is not greater. -/
def floor (f : Float) : Float :=
  roundMagnitude id f

/-- The least whole number that is not less. -/
def ceil (f : Float) : Float :=
  roundMagnitude not f

/-- The remainder of the quotient rounded towards zero, exact and with the sign of `a`. -/
def remainder (a b : Float) : Float :=
  match parts a, parts b with
  | .finite negative m e, .finite _ n d =>
    if n = 0 then nan
    else
      let low := min e d
      let r := (m * Nat.pow 2 (e - low).toNat) % (n * Nat.pow 2 (d - low).toNat)
      nearest negative (r * scaleUp low) (scaleDown low)
  | .finite _ _ _, .infinite _ => a
  | _, _ => nan

end StaticConfig.Double
