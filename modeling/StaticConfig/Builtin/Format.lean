import StaticConfig.Builtin.Args
import StaticConfig.Json.Printer
import StaticConfig.Text.Quoted

/-!
Formatted texts: a format contains verbs, each of which writes the next argument.
-/
namespace StaticConfig.Builtin.Format

open StaticConfig.Builtin

structure Verb where
  leftAlign : Bool
  zeroPad : Bool
  plus : Bool
  sharp : Bool
  width : Option Nat
  precision : Option Nat
  letter : Char
  deriving DecidableEq, Inhabited

def plainVerb : Verb := ⟨false, false, false, false, none, none, '%'⟩

def widthLimit : Nat := 1000000

def readFlags : Verb → List Char → Verb × List Char
  | verb, c :: cs =>
    if c = '-' then readFlags { verb with leftAlign := true } cs
    else if c = '0' then readFlags { verb with zeroPad := true } cs
    else if c = '+' then readFlags { verb with plus := true } cs
    else if c = '#' then readFlags { verb with sharp := true } cs
    else if c = ' ' then readFlags verb cs
    else (verb, c :: cs)
  | verb, [] => (verb, [])

/-- A number with at least one digit, if one stands here. -/
def readCount : Option Nat → List Char → Except CallError (Option Nat × List Char)
  | n, [] => .ok (n, [])
  | n, c :: cs =>
    if c.isDigit then
      let next := 10 * n.getD 0 + (c.toNat - '0'.toNat)
      if next ≤ widthLimit then readCount (some next) cs else .error (.formatWidth widthLimit)
    else .ok (n, c :: cs)

/-- The verb after a percent sign. -/
def readVerb (cs : List Char) : Except CallError (Verb × List Char) := do
  let (verb, cs) := readFlags plainVerb cs
  let (width, cs) ← readCount none cs
  let (precision, cs) ←
    match cs with
    | '.' :: cs => do
      let (n, cs) ← readCount none cs
      pure (some (n.getD 0), cs)
    | cs => pure (none, cs)
  match cs with
  | c :: cs => .ok ({ verb with width := width, precision := precision, letter := c }, cs)
  | [] => .error .openVerb

/-- Fills the text up to the width of the verb. Zeros go behind a minus sign. -/
def pad (verb : Verb) (cs : List Char) : List Char :=
  let fill := verb.width.getD 0 - cs.length
  if verb.leftAlign then cs ++ List.replicate fill ' '
  else if verb.zeroPad then
    match cs with
    | '-' :: digits => '-' :: List.replicate fill '0' ++ digits
    | cs => List.replicate fill '0' ++ cs
  else List.replicate fill ' ' ++ cs

def withPlus (verb : Verb) (positive : Bool) (s : String) : String :=
  if verb.plus && positive then "+" ++ s else s

def document (v : Value) : Except CallError String :=
  match Json.ofValue? v with
  | some j => .ok j.write
  | none => .error .unknownDocument

def defaultPlaces : Nat := 6

/-- The argument as the verb writes it, before it is padded. -/
def writeArgument (verb : Verb) (v : Value) : Except CallError String := do
  if verb.letter = 'v' then
    if verb.sharp then document v
    else match v with
      | .string s => .ok s
      | .null _ => .ok "null"
      | v => if v.isSequence || v.isMapping then document v else asString v
  else if verb.letter = 's' then asString v
  else if verb.letter = 'q' then .ok (Text.quoted (← asString v))
  else if verb.letter = 't' then .ok (if ← asBool v then "true" else "false")
  else if verb.letter = 'd' then
    match (← asNumber v).toInt? with
    | some i => .ok (withPlus verb (decide (0 ≤ i)) (toString i.toInt))
    | none => .error .notWholeVerb
  else if verb.letter = 'f' then
    let f := (← asNumber v).toFloat
    .ok (withPlus verb (decide (Double.ofInt 0 ≤ f))
      (Double.fixed (verb.precision.getD defaultPlaces) f))
  else if verb.letter = 'e' then
    let f := (← asNumber v).toFloat
    .ok (withPlus verb (decide (Double.ofInt 0 ≤ f))
      (Double.exponential (verb.precision.getD defaultPlaces) f))
  else if verb.letter = 'x' then .ok (Text.writeWord 16 (← asWhole v))
  else if verb.letter = 'X' then .ok (Text.writeWord 16 (← asWhole v)).toUpper
  else if verb.letter = 'o' then .ok (Text.writeWord 8 (← asWhole v))
  else if verb.letter = 'b' then .ok (Text.writeWord 2 (← asWhole v))
  else .error (.unsupportedVerb verb.letter)

/-- Writes the rest of a format after `out`. The next argument is the first of `rest`, with
index `next`. -/
def formatFrom (total : Nat) : Nat → List Char → Nat → List Value → List Char →
    Except CallError (List Char)
  | 0, out, _, _, _ => .ok out
  | fuel + 1, out, next, rest, cs =>
    match cs with
    | [] =>
      if rest.isEmpty then .ok out else .error (.extraVerbArgument (next + 1))
    | '%' :: '%' :: cs => formatFrom total fuel (out ++ ['%']) next rest cs
    | '%' :: cs => do
      let (verb, cs) ← readVerb cs
      match rest with
      | [] => .error (.missingVerbArgument verb.letter out.length (next + 1) total)
      | v :: rest =>
        if v.isNull ∧ verb.letter ≠ 'v' then .error (.nullVerbArgument verb.letter out.length)
        else
          let text ← writeArgument verb v
          formatFrom total fuel (out ++ pad verb text.toList) (next + 1) rest cs
    | c :: cs => formatFrom total fuel (out ++ [c]) next rest cs

def format (first : Value) (args : List Value) : CallResult := do
  let cs := (← asString first).toList
  let out ← formatFrom args.length (cs.length + 1) [] 0 args cs
  .ok (.string (String.ofList out))

end StaticConfig.Builtin.Format
