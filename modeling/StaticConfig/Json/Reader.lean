import StaticConfig.Json.Basic
import StaticConfig.Number

/-!
The double that a JSON number with a fraction or an exponent denotes: its leading digits as a
64-bit word, rounded to a double and then scaled by a power of ten. The result may differ from
the nearest double in the last place.
-/
namespace StaticConfig.Json

def wordLimit : Nat := Nat.pow 2 64

/-- Appends digits to `acc` while it fits 64 bits. The second part counts the appended digits
and the third the digits left over. -/
def takeDigits : Nat → Nat → List Char → Nat × Nat × Nat
  | acc, taken, [] => (acc, taken, 0)
  | acc, taken, c :: cs =>
    let next := 10 * acc + (c.toNat - '0'.toNat)
    if next < wordLimit then takeDigits next (taken + 1) cs
    else (acc, taken, cs.length + 1)

/-- Multiplies by `10 ^ exponent`, in steps that stay within the range of powers of ten. There
is no result when it is out of range. -/
def scaleBy : Nat → Float → Int → Option Float
  | 0, f, _ => some f
  | steps + 1, f, exponent =>
    if exponent.natAbs ≤ 308 then
      let power := Double.ofInt (Int.pow 10 exponent.natAbs)
      if 0 ≤ exponent then
        let g := f * power
        if Double.isFinite g then some g else none
      else some (f / power)
    else if f == Double.ofInt 0 then some f
    else if 0 ≤ exponent then none
    else scaleBy steps (f / Double.ofInt (Int.pow 10 308)) (exponent + 308)

/-- Every positive double divided by this many powers `10 ^ 308` is zero. -/
def scaleSteps : Nat := 8

def exponentBound : Int := Int.pow 2 31

/-- The double with the given parts: digits before the point, digits after it, and the digits
of an exponent with the flag for a negative one. -/
def scaled (negative : Bool) (whole frac : List Char) (exponent : Option (Bool × List Char)) :
    Option Float :=
  let (acc, _, dropped) := takeDigits 0 0 whole
  let (acc, taken, _) := takeDigits acc 0 frac
  let shift : Int := Int.ofNat dropped - Int.ofNat taken
  let sign (f : Float) : Float := if negative then -f else f
  let start := Double.ofInt acc
  match exponent with
  | none => (scaleBy scaleSteps start shift).map sign
  | some (down, ds) =>
    let e := Int.ofNat (Double.readDigits ds)
    if exponentBound ≤ e then
      if acc ≠ 0 ∧ !down then none else some (sign (Double.ofInt 0))
    else
      let total := if down then max (shift - e) (-exponentBound)
        else min (shift + e) (exponentBound - 1)
      (scaleBy scaleSteps start total).map sign

end StaticConfig.Json

/-!
Reading JSON texts. Arrays and objects nest at most 127 levels deep, and nothing but blanks may
follow the document.
-/
namespace StaticConfig.Json

def isSpace (c : Char) : Bool :=
  c == ' ' || c == '\n' || c == '\t' || c == '\r'

def skipSpace (cs : List Char) : List Char :=
  cs.dropWhile isSpace

def hexValue? (c : Char) : Option Nat :=
  let v := Text.digitValue c
  if v < 16 then some v else none

/-- Four hexadecimal digits. -/
def readCode : List Char → Option (Nat × List Char)
  | a :: b :: c :: d :: cs => do
    let a ← hexValue? a
    let b ← hexValue? b
    let c ← hexValue? c
    let d ← hexValue? d
    some (((a * 16 + b) * 16 + c) * 16 + d, cs)
  | _ => none

def isHighSurrogate (n : Nat) : Bool := decide (0xd800 ≤ n) && decide (n < 0xdc00)

def isLowSurrogate (n : Nat) : Bool := decide (0xdc00 ≤ n) && decide (n < 0xe000)

/-- The character of a numeric escape, whose mark has been read. Two surrogates make one. -/
def readEscapedCode (cs : List Char) : Option (Char × List Char) := do
  let (n, rest) ← readCode cs
  if isHighSurrogate n then
    match rest with
    | '\\' :: 'u' :: rest =>
      let (m, rest) ← readCode rest
      if isLowSurrogate m then
        some (Char.ofNat (0x10000 + (n - 0xd800) * 0x400 + (m - 0xdc00)), rest)
      else none
    | _ => none
  else if isLowSurrogate n then none
  else some (Char.ofNat n, rest)

def simpleEscape? (c : Char) : Option Char :=
  if c = '"' ∨ c = '\\' ∨ c = '/' then some c
  else if c = 'b' then some (Char.ofNat 8)
  else if c = 'f' then some (Char.ofNat 12)
  else if c = 'n' then some '\n'
  else if c = 'r' then some '\r'
  else if c = 't' then some '\t'
  else none

/-- The rest of a string whose opening quote has been read. -/
def readString : Nat → List Char → List Char → Option (String × List Char)
  | 0, _, _ => none
  | fuel + 1, acc, cs =>
    match cs with
    | [] => none
    | '"' :: rest => some (String.ofList acc.reverse, rest)
    | '\\' :: 'u' :: rest => do
      let (c, rest) ← readEscapedCode rest
      readString fuel (c :: acc) rest
    | '\\' :: e :: rest => do
      let c ← simpleEscape? e
      readString fuel (c :: acc) rest
    | c :: rest => if c.toNat < 32 || c == '\\' then none else readString fuel (c :: acc) rest

def spanDigits (cs : List Char) : List Char × List Char :=
  (cs.takeWhile Char.isDigit, cs.dropWhile Char.isDigit)

/-- Fraction digits, or none where no point stands. A point needs a digit after it. -/
def readFraction : List Char → Option (List Char × List Char)
  | '.' :: cs =>
    let ds := spanDigits cs
    if ds.1.isEmpty then none else some ds
  | cs => some ([], cs)

def readExponent : List Char → Option (Option (Bool × List Char) × List Char)
  | [] => some (none, [])
  | e :: cs =>
    if e == 'e' || e == 'E' then
      let down := cs.head? == some '-'
      let ds := spanDigits (if down || cs.head? == some '+' then cs.drop 1 else cs)
      if ds.1.isEmpty then none else some (some (down, ds.1), ds.2)
    else some (none, e :: cs)

/-- A whole number is exact if it fits 64 bits, and otherwise a double. -/
def wholeNumber (negative : Bool) (ds : List Char) : Option Number :=
  let n := Double.readDigits ds
  let i := if negative then -Int.ofNat n else Int.ofNat n
  if negative && n == 0 then some (.float (Double.ofBits true 0))
  else if Text.fitsWord i then some (.int (Int64.ofInt i))
  else if n < wordLimit then some (.float (Double.ofInt i))
  else (scaled negative ds [] none).map .float

def readNumber (cs : List Char) : Option (Number × List Char) := do
  let negative := cs.head? == some '-'
  let ds := spanDigits (if negative then cs.drop 1 else cs)
  if ds.1.isEmpty || (ds.1.head? == some '0' && 1 < ds.1.length) then none
  else
    let (frac, rest) ← readFraction ds.2
    let (exponent, rest) ← readExponent rest
    let n ←
      if frac.isEmpty && exponent.isNone then wholeNumber negative ds.1
      else (scaled negative ds.1 frac exponent).map Number.float
    some (n, rest)

mutual

/-- A document at the start of the text. `depth` counts the levels that may still open. -/
def readJson : Nat → Nat → List Char → Option (Json × List Char)
  | 0, _, _ => none
  | fuel + 1, depth, cs =>
    match skipSpace cs with
    | 'n' :: 'u' :: 'l' :: 'l' :: rest => some (null, rest)
    | 't' :: 'r' :: 'u' :: 'e' :: rest => some (bool true, rest)
    | 'f' :: 'a' :: 'l' :: 's' :: 'e' :: rest => some (bool false, rest)
    | '"' :: rest => do
      let (s, rest) ← readString (rest.length + 1) [] rest
      some (string s, rest)
    | '[' :: rest =>
      if depth = 0 then none
      else match skipSpace rest with
        | ']' :: rest => some (array [], rest)
        | rest => do
          let (items, rest) ← readItems fuel (depth - 1) rest
          some (array items, rest)
    | '\x7b' :: rest =>
      if depth = 0 then none
      else match skipSpace rest with
        | '\x7d' :: rest => some (object [], rest)
        | rest => do
          let (members, rest) ← readMembers fuel (depth - 1) rest
          some (object members, rest)
    | rest => do
      let (n, rest) ← readNumber rest
      some (number n, rest)

/-- The items up to the closing bracket, at least one. -/
def readItems : Nat → Nat → List Char → Option (List Json × List Char)
  | 0, _, _ => none
  | fuel + 1, depth, cs => do
    let (j, rest) ← readJson fuel depth cs
    match skipSpace rest with
    | ']' :: rest => some ([j], rest)
    | ',' :: rest => do
      let (js, rest) ← readItems fuel depth rest
      some (j :: js, rest)
    | _ => none

/-- The members up to the closing brace, at least one. -/
def readMembers : Nat → Nat → List Char → Option (List (String × Json) × List Char)
  | 0, _, _ => none
  | fuel + 1, depth, cs =>
    match skipSpace cs with
    | '"' :: rest => do
      let (k, rest) ← readString (rest.length + 1) [] rest
      match skipSpace rest with
      | ':' :: rest => do
        let (j, rest) ← readJson fuel depth rest
        match skipSpace rest with
        | '\x7d' :: rest => some ([(k, j)], rest)
        | ',' :: rest => do
          let (ms, rest) ← readMembers fuel depth rest
          some ((k, j) :: ms, rest)
        | _ => none
      | _ => none
    | _ => none

end

/-- How many arrays and objects may be open at once. -/
def depthLimit : Nat := 127

/-- Reads a text that is one document. -/
def read? (s : String) : Option Json :=
  match readJson (2 * s.length + 2) depthLimit s.toList with
  | some (j, rest) => if (skipSpace rest).isEmpty then some j else none
  | none => none

end StaticConfig.Json
