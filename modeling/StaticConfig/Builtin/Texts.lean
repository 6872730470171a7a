import StaticConfig.Builtin.Format
import StaticConfig.Pattern.Search
import StaticConfig.Text.Pieces

/-!
Functions on texts.
-/
namespace StaticConfig.Builtin.Texts

open StaticConfig.Builtin

/-- A function from a text to a text. -/
def onText (f : String → String) : Builtin :=
  unary .string fun v => do
    let s ← asString v
    .ok (.string (f s))

/-- A function from two texts. -/
def onTexts (result : Ty) (f : String → String → Value) : Builtin :=
  binary result fun a b => do
    let s ← asString a
    let t ← asString b
    .ok (f s t)

def chomp (s : String) : String :=
  let isBreak (c : Char) : Bool := c == '\n' || c == '\r'
  String.ofList (s.toList.reverse.dropWhile isBreak).reverse

/-- Letters that begin a word in upper case. -/
def titleFrom (atStart : Bool) : List Char → List Char
  | [] => []
  | c :: cs =>
    (if atStart && Text.isAlphabetic c then Text.upperOf c else [c])
      ++ titleFrom (!Text.isAlphanumeric c) cs

def title (s : String) : String :=
  String.ofList (titleFrom true s.toList)

def reverse (s : String) : String :=
  String.ofList s.toList.reverse

def trim (s cutset : String) : String :=
  String.ofList (Text.trimBoth (cutset.toList.contains ·) s.toList)

/-- The texts of the items of a list, none of which may be null. -/
def joinable (index : Nat) : List Value → Except CallError (List String)
  | [] => .ok []
  | v :: vs => do
    if v.isNull then .error (.nullJoined index)
    else
      let s ← asString v
      let rest ← joinable index vs
      .ok (s :: rest)

def joinableLists (index : Nat) : List Value → Except CallError (List String)
  | [] => .ok []
  | v :: vs => do
    let items ← asSequence v
    let first ← joinable index items
    let rest ← joinableLists (index + 1) vs
    .ok (first ++ rest)

def join (args : List Value) : CallResult :=
  match args with
  | [] => .error (.tooFew 2 0)
  | sep :: lists => do
    let sep ← asString sep
    let parts ← joinableLists 0 lists
    .ok (.string (String.intercalate sep parts))

/-- The characters from `offset` on, as many as `length` says; -1 stands for all that are left.
A negative offset counts from the end. -/
def cut (cs : List Char) (offset length : Int) : Except CallError (List Char) :=
  let size : Int := cs.length
  let start := if offset < 0 then max (size + offset) 0 else offset
  if size ≤ start then .ok []
  else if length = -1 then .ok (cs.drop start.toNat)
  else if length < -1 then .error .badLength
  else .ok ((cs.drop start.toNat).take length.toNat)

def substr (s offset length : Value) : CallResult := do
  let s ← asString s
  let offset ← asWhole offset
  let length ← asWhole length
  let part ← cut s.toList offset.toInt length.toInt
  .ok (.string (String.ofList part))

def compiled (pattern : String) : Except CallError Pattern.Named :=
  match Pattern.read? pattern with
  | some p => .ok p
  | none => .error (.badPattern pattern)

/-- The pattern that a text between slashes stands for. -/
def betweenSlashes (s : String) : Option String :=
  match s.toList with
  | '/' :: cs =>
    match cs.reverse with
    | '/' :: inner => some (String.ofList inner.reverse)
    | _ => none
  | _ => none

def replace (s piece replacement : Value) : CallResult := do
  let s ← asString s
  let piece ← asString piece
  let replacement ← asString replacement
  match betweenSlashes piece with
  | some pattern =>
    let p ← compiled pattern
    .ok (.string (p.replaceAll replacement s))
  | none => .ok (.string (Text.replace piece replacement s))

/-- The groups of a match by index or, if all are named, by name; without groups the text that
matches. -/
def matchValue (names : List (Option String)) (text : List Char) (m : Pattern.Match) : Value :=
  let group (index : Nat) : Value :=
    match m.groupText text index with
    | some cs => .string (String.ofList cs)
    | none => .null .string
  let groups := names.mapIdx fun i _ => group (i + 1)
  if names.isEmpty then group 0
  else if names.all Option.isSome then
    .object (Fields.ofList ((names.filterMap id).zip groups))
  else .list .string groups

def regex (pattern s : Value) : CallResult := do
  let pattern ← asString pattern
  let s ← asString s
  let p ← compiled pattern
  match Pattern.find? p.pattern s.toList with
  | some m => .ok (matchValue p.groupNames s.toList m)
  | none => .error .noMatch

def regexall (pattern s : Value) : CallResult := do
  let pattern ← asString pattern
  let s ← asString s
  let p ← compiled pattern
  .ok (listOrTuple ((Pattern.findAll p.pattern s.toList).map (matchValue p.groupNames s.toList)))

def functions : List (String × Builtin) := [
  ("chomp", onText chomp),
  ("endswith", onTexts .bool fun s piece => .bool (Text.endsWith piece s)),
  ("format", variadicFrom .string Format.format),
  ("join", variadic 2 .string join),
  ("lower", onText Text.lower),
  ("regex", binary .dynamic regex),
  ("regexall", binary (.list .dynamic) regexall),
  ("replace", ternary .string replace),
  ("split", onTexts (.list .string) fun sep s => .strings (Text.split sep s)),
  ("startswith", onTexts .bool fun s piece => .bool (Text.startsWith piece s)),
  ("strrev", onText reverse),
  ("substr", ternary .string substr),
  ("title", onText title),
  ("trim", onTexts .string fun s cutset => .string (trim s cutset)),
  ("trimprefix", onTexts .string fun s piece => .string (Text.dropStart piece s)),
  ("trimspace", onText Text.trim),
  ("trimsuffix", onTexts .string fun s piece => .string (Text.dropEnd piece s)),
  ("upper", onText Text.upper)]

end StaticConfig.Builtin.Texts
