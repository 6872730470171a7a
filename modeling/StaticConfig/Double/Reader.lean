import StaticConfig.Double.Basic

/-!
Reading decimal texts as doubles. A text is an optional sign followed by digits with an optional
point and an optional exponent, or by one of the words for infinity and not-a-number.
-/
namespace StaticConfig.Double

def readDigits (cs : List Char) : Nat :=
  cs.foldl (fun n c => 10 * n + (c.toNat - '0'.toNat)) 0

/-- Beyond this power of ten every positive number rounds to infinity or to zero. -/
def exponentLimit : Int := 400

/-- The double nearest to `digits * 10 ^ exponent`, where `digits` has `count` digits. -/
def ofDecimal (negative : Bool) (digits count : Nat) (exponent : Int) : Float :=
  if digits = 0 then ofBits negative 0
  else if exponentLimit < exponent then infinity negative
  else if exponent + Int.ofNat count < -exponentLimit then ofBits negative 0
  else nearest negative (digits * Nat.pow 10 exponent.toNat) (Nat.pow 10 (-exponent).toNat)

/-- Value of an exponent's digits, kept small enough to compute with. -/
def clampedExponent (cs : List Char) : Int :=
  let cs := cs.dropWhile (· == '0')
  if 18 < cs.length then Int.pow 10 18 else Int.ofNat (readDigits cs)

/-- The exponent after the digits, if the text ends properly. -/
def readExponent : List Char → Option Int
  | [] => some 0
  | e :: cs =>
    if e == 'e' || e == 'E' then
      let negative := cs.head? == some '-'
      let ds := if negative || cs.head? == some '+' then cs.drop 1 else cs
      if ds.isEmpty || !ds.all Char.isDigit then none
      else some (if negative then -clampedExponent ds else clampedExponent ds)
    else none

/-- An unsigned decimal number. -/
def readDecimal (negative : Bool) (cs : List Char) : Option Float :=
  let whole := cs.takeWhile Char.isDigit
  let rest := cs.dropWhile Char.isDigit
  let pointed := rest.head? == some '.'
  let frac := if pointed then (rest.drop 1).takeWhile Char.isDigit else []
  let rest := if pointed then (rest.drop 1).dropWhile Char.isDigit else rest
  let digits := whole ++ frac
  if digits.isEmpty then none
  else (readExponent rest).map fun e =>
    let significant := digits.dropWhile (· == '0')
    ofDecimal negative (readDigits significant) significant.length (e - Int.ofNat frac.length)

def readUnsigned (negative : Bool) (cs : List Char) : Option Float :=
  let word := String.ofList (cs.map Char.toLower)
  if word == "inf" || word == "infinity" then some (infinity negative)
  else if word == "nan" then some nan
  else readDecimal negative cs

def read? (s : String) : Option Float :=
  match s.toList with
  | '-' :: cs => readUnsigned true cs
  | '+' :: cs => readUnsigned false cs
  | cs => readUnsigned false cs

end StaticConfig.Double
