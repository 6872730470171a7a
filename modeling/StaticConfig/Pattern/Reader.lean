import StaticConfig.Pattern.Basic
import StaticConfig.Pattern.Program
import StaticConfig.Text.Radix

/-!
Reading of characters, escapes and character classes in the text of a pattern. What a character
stands for depends on the flags that are set at its place.
-/
namespace StaticConfig.Pattern

/-- The letters `i m s U u R x` that change how a pattern is read. -/
structure Flags where
  ignoreCase : Bool
  multiLine : Bool
  dotAll : Bool
  swapGreed : Bool
  unicode : Bool
  anyLineEnd : Bool
  /-- Blanks and comments between the parts of the pattern are left out. -/
  spaced : Bool
  deriving DecidableEq, Inhabited

def startFlags : Flags := ⟨false, false, false, false, true, false, false⟩

/-- Leaves out blanks and comments where the flags allow them. A comment reaches to the end of
its line. -/
def skipSpace (flags : Flags) (inComment : Bool) : List Char → List Char
  | [] => []
  | c :: cs =>
    if !flags.spaced then c :: cs
    else if inComment then skipSpace flags (c != '\n') cs
    else if Text.isBlank c then skipSpace flags false cs
    else if c = '#' then skipSpace flags true cs
    else c :: cs

def spaced (flags : Flags) (cs : List Char) : List Char := skipSpace flags false cs

/-- What one character or escape stands for. -/
inductive Atom where
  | char (c : Char)
  | cls (c : CharClass)
  | look (l : Look)
  deriving Inhabited

/-- The class with what differs in case only, if case is ignored. -/
def folded (flags : Flags) (c : CharClass) : CharClass :=
  if flags.ignoreCase then (if flags.unicode then .folded c else .asciiFolded c) else c

def negatedIf (negated : Bool) (c : CharClass) : CharClass :=
  if negated then .compl c else c

/-- Without the Unicode flag a class may only hold the first 128 characters. -/
def admitted (flags : Flags) (c : CharClass) : Option CharClass :=
  if flags.unicode then some c
  else if (List.range 128).any fun i => c.mem (Char.ofNat (i + 128)) then none
  else some c

/-- Characters that mean something in patterns. -/
def isMeta (c : Char) : Bool :=
  "\\.+*?()|[]\x7b\x7d^$#&-~".toList.contains c

/-- Characters that stand for themselves after a backslash. -/
def isEscapable (c : Char) : Bool :=
  isMeta c || Text.isAscii c && !c.isAlphanum && c != '<' && c != '>'

def controlEscapes : List (Char × Nat) :=
  [('a', 7), ('f', 12), ('t', 9), ('n', 10), ('r', 13), ('v', 11)]

def charOfDigits (ds : List Char) : Option Char :=
  match Text.readNat 16 0 ds with
  | some n => if n.isValidChar then some (Char.ofNat n) else none
  | none => none

def isHexDigit (c : Char) : Bool := decide (Text.digitValue c < 16)

/-- Exactly `count` hexadecimal digits. -/
def readHexDigits (flags : Flags) : Nat → List Char → List Char → Option (List Char × List Char)
  | 0, ds, cs => some (ds.reverse, cs)
  | n + 1, ds, cs =>
    match cs with
    | c :: cs => if isHexDigit c then readHexDigits flags n (c :: ds) (spaced flags cs) else none
    | [] => none

/-- The text up to a closing brace. -/
def readBraced (flags : Flags) : Nat → List Char → List Char → Option (List Char × List Char)
  | 0, _, _ => none
  | fuel + 1, ds, cs =>
    match spaced flags cs with
    | [] => none
    | '\x7d' :: cs => some (ds.reverse, cs)
    | c :: cs => readBraced flags fuel (c :: ds) cs

/-- A character given by its number in hexadecimal digits. -/
def readHex (flags : Flags) (count : Nat) (cs : List Char) : Option (Char × List Char) :=
  match spaced flags cs with
  | '\x7b' :: cs => do
    let (ds, cs) ← readBraced flags (cs.length + 1) [] cs
    if ds.isEmpty || !ds.all isHexDigit then none
    else do
      let c ← charOfDigits ds
      pure (c, spaced flags cs)
  | cs => do
    let (ds, cs) ← readHexDigits flags count [] cs
    let c ← charOfDigits ds
    pure (c, cs)

/-- A character given by two digits, or by any number of them in braces. Without the Unicode flag
two digits give a byte, and only that of an ASCII character is one by itself. -/
def readShortHex (flags : Flags) (cs : List Char) : Option (Char × List Char) := do
  let (c, rest) ← readHex flags 2 cs
  let braced := (spaced flags cs).head? == some '\x7b'
  if flags.unicode || braced || Text.isAscii c then some (c, rest) else none

/-- Names of properties are compared without case, separators and a leading `is`. -/
def normalName (cs : List Char) : String :=
  let kept := (cs.filter fun c => !(c == ' ' || c == '_' || c == '-')).map Char.toLower
  match kept with
  | 'i' :: 's' :: rest => if rest = ['c'] ∨ rest = [] then String.ofList kept
    else String.ofList rest
  | kept => String.ofList kept

def binaryProperties : List (String × CharClass) := [
  ("alphabetic", .alphabetic), ("alpha", .alphabetic),
  ("uppercase", .uppercase), ("upper", .uppercase),
  ("lowercase", .lowercase), ("lower", .lowercase),
  ("whitespace", .blank), ("wspace", .blank), ("space", .blank)]

def categoryClass (name : String) : Option CharClass :=
  if name = "any" then some .any
  else if name = "ascii" then some (.span '\x00' '\x7f')
  else if name = "assigned" then some (.compl (.category [.unassigned]))
  else (Text.Category.named? name).map .category

def scriptClass (name : String) : Option CharClass :=
  (Text.Script.named? name).map .ranges

/-- The class of a property given by its name, or by its name and value. -/
def propertyClass (cs : List Char) : Option CharClass :=
  let withValue (key value : List Char) : Option CharClass :=
    let key := normalName key
    let value := normalName value
    if ["gc", "generalcategory"].contains key then categoryClass value
    else if ["sc", "script", "scx", "scriptextensions"].contains key then scriptClass value
    else none
  match cs.span (fun c => c != '!' && c != ':' && c != '=') with
  | (key, '!' :: '=' :: value) => (withValue key value).map .compl
  | (key, ':' :: value) => withValue key value
  | (key, '=' :: value) => withValue key value
  | _ =>
    let name := normalName cs
    (binaryProperties.lookup name).or ((categoryClass name).or (scriptClass name))

/-- A property after the letter `p`, or `P` for its complement. -/
def readProperty (flags : Flags) (negated : Bool) (cs : List Char) :
    Option (CharClass × List Char) := do
  if !flags.unicode then none
  let (name, cs) ←
    match spaced flags cs with
    | '\x7b' :: cs => readBraced flags (cs.length + 1) [] cs
    | '\\' :: _ => none
    | c :: cs => some ([c], spaced flags cs)
    | [] => none
  let cls ← propertyClass name
  pure (negatedIf negated (folded flags cls), cs)

/-- The classes that have a letter of their own; the capital stands for the complement. -/
def letterClass (flags : Flags) (c : Char) : Option CharClass :=
  if c = 'd' then some (if flags.unicode then .decimal else .asciiDigit)
  else if c = 's' then some (if flags.unicode then .blank else .asciiBlank)
  else if c = 'w' then some (if flags.unicode then .word else .asciiWord)
  else none

def isEdgeName (c : Char) : Bool := c.isAlpha || c == '-'

/-- A name of an edge of words in braces. -/
def readEdgeName (flags : Flags) : Nat → List Char → List Char → Option (String × List Char)
  | 0, _, _ => none
  | fuel + 1, name, cs =>
    match cs with
    | '\x7d' :: cs => some (String.ofList name.reverse, cs)
    | c :: cs =>
      if isEdgeName c then readEdgeName flags fuel (c :: name) (spaced flags cs) else none
    | [] => none

/-- An edge of words. In braces, the letter `b` may be followed by which edge is meant; digits
there belong to a repetition. -/
def readEdge (flags : Flags) (cs : List Char) : Option (Look × List Char) :=
  let ascii := !flags.unicode
  match cs with
  | '\x7b' :: rest =>
    match spaced flags rest with
    | [] => none
    | c :: more =>
      if !isEdgeName c then some (.wordEdge ascii, cs)
      else do
        let (name, cs) ← readEdgeName flags (rest.length + 1) [] (c :: more)
        let l ← [("start", Look.wordStart ascii), ("end", Look.wordEnd ascii),
          ("start-half", Look.wordStartHalf ascii), ("end-half", Look.wordEndHalf ascii)].lookup
            name
        pure (l, cs)
  | cs => some (.wordEdge ascii, cs)

/-- What a backslash and the characters after it stand for. -/
def readEscape (flags : Flags) : List Char → Option (Atom × List Char)
  | [] => none
  | c :: cs =>
    let ascii := !flags.unicode
    if c = 'x' then (readShortHex flags cs).map fun r => (.char r.1, r.2)
    else if c = 'u' then (readHex flags 4 cs).map fun r => (.char r.1, r.2)
    else if c = 'U' then (readHex flags 8 cs).map fun r => (.char r.1, r.2)
    else if c = 'p' ∨ c = 'P' then
      (readProperty flags (c == 'P') cs).map fun r => (.cls r.1, r.2)
    else if isEscapable c then some (.char c, cs)
    else if c = 'A' then some (.look .textStart, cs)
    else if c = 'z' then some (.look .textEnd, cs)
    else if c = 'b' then (readEdge flags cs).map fun r => (.look r.1, r.2)
    else if c = 'B' then some (.look (.notWordEdge ascii), cs)
    else if c = '<' then some (.look (.wordStart ascii), cs)
    else if c = '>' then some (.look (.wordEnd ascii), cs)
    else match letterClass flags c.toLower with
      | some cls => some (.cls (negatedIf c.isUpper cls), cs)
      | none => (controlEscapes.lookup c).map fun n => (.char (Char.ofNat n), cs)

/-- One item between the brackets of a class. -/
def readItem (flags : Flags) : List Char → Option (Atom × List Char)
  | '\\' :: cs => readEscape flags cs
  | c :: cs => some (.char c, cs)
  | [] => none

/-- Without the Unicode flag a class names no characters from the 129th on. -/
def itemChar (flags : Flags) (c : Char) : Option Char :=
  if flags.unicode || Text.isAscii c then some c else none

/-- An item of a class, or a span of characters. -/
def readSpan (flags : Flags) (cs : List Char) : Option (CharClass × List Char) := do
  let (first, cs) ← readItem flags cs
  let alone : Option CharClass := match first with
    | .char c => (itemChar flags c).map .single
    | .cls c => some c
    | .look _ => none
  match spaced flags cs with
  | [] => none
  | '-' :: rest =>
    match spaced flags rest with
    | [] => none
    | ']' :: _ => alone.map fun a => (a, '-' :: rest)
    | '-' :: _ => alone.map fun a => (a, '-' :: rest)
    | cs => do
      let (last, cs) ← readItem flags cs
      match first, last with
      | .char a, .char b => do
        let a ← itemChar flags a
        let b ← itemChar flags b
        if a ≤ b then some (.span a b, cs) else none
      | _, _ => none
  | cs => alone.map fun a => (a, cs)

/-- A named class such as `[:alpha:]`, where one stands. -/
def readNamed (flags : Flags) (cs : List Char) : Option (CharClass × List Char) :=
  match cs with
  | '[' :: ':' :: cs =>
    let (negated, cs) := match cs with
      | '^' :: cs => (true, cs)
      | cs => (false, cs)
    match cs.span (· != ':') with
    | (name, ':' :: ']' :: cs) =>
      (CharClass.named.lookup (String.ofList name)).map fun cls =>
        (negatedIf negated (folded flags cls), cs)
    | _ => none
  | _ => none

inductive SetOp where
  | inter
  | diff
  | symmDiff
  deriving DecidableEq

/-- What is open while a class is read: a bracket after items of the class around it, or an
operation with its first operand. -/
inductive ClassFrame where
  | bracket (around : CharClass) (negated : Bool)
  | operation (op : SetOp) (first : CharClass)

def SetOp.apply (flags : Flags) (op : SetOp) (a b : CharClass) : CharClass :=
  let a := folded flags a
  let b := folded flags b
  match op with
  | .inter => .inter a b
  | .diff => .diff a b
  | .symmDiff => .symmDiff a b

/-- Applies the operation on top, if there is one. -/
def applyTop (flags : Flags) (last : CharClass) : List ClassFrame → CharClass × List ClassFrame
  | .operation op first :: below => (op.apply flags first last, below)
  | frames => (last, frames)

def dropDashes (flags : Flags) : Nat → List Char → List Char
  | fuel + 1, '-' :: cs => dropDashes flags fuel (spaced flags cs)
  | _, cs => cs

/-- The start of a class after its bracket: a negation, dashes, and a closing bracket that
stands for itself because it comes first. -/
def readOpening (flags : Flags) (cs : List Char) : Bool × CharClass × List Char :=
  let cs := spaced flags cs
  let (negated, cs) := match cs with
    | '^' :: cs => (true, spaced flags cs)
    | cs => (false, cs)
  match cs with
  | '-' :: _ => (negated, .single '-', dropDashes flags cs.length cs)
  | ']' :: cs => (negated, .single ']', spaced flags cs)
  | cs => (negated, .never, cs)

/-- Reads a class from its opening bracket on. `items` are the items of the innermost open
class, so far as they have been read. -/
def readClassFrom (flags : Flags) :
    Nat → List ClassFrame → CharClass → List Char → Option (CharClass × List Char)
  | 0, _, _, _ => none
  | fuel + 1, frames, items, cs =>
    let operator (op : SetOp) (cs : List Char) : Option (CharClass × List Char) :=
      let (first, below) := applyTop flags items frames
      readClassFrom flags fuel (.operation op first :: below) .never cs
    match spaced flags cs with
    | [] => none
    | '[' :: rest =>
      match if frames.isEmpty then none else readNamed flags ('[' :: rest) with
      | some (cls, cs) => readClassFrom flags fuel frames (.union items cls) cs
      | none =>
        let (negated, first, cs) := readOpening flags rest
        readClassFrom flags fuel (.bracket items negated :: frames) first cs
    | ']' :: cs =>
      let (last, below) := applyTop flags items frames
      match below with
      | .bracket around negated :: below =>
        let cls := negatedIf negated (folded flags last)
        if below.isEmpty then some (cls, cs)
        else readClassFrom flags fuel below (.union around cls) cs
      | _ => none
    | '&' :: '&' :: cs => operator .inter cs
    | '-' :: '-' :: cs => operator .diff cs
    | '~' :: '~' :: cs => operator .symmDiff cs
    | cs => do
      let (cls, cs) ← readSpan flags cs
      readClassFrom flags fuel frames (.union items cls) cs

/-- A class in brackets. -/
def readClass (flags : Flags) (cs : List Char) : Option (CharClass × List Char) := do
  let (cls, cs) ← readClassFrom flags (cs.length + 1) [] .never cs
  let cls ← admitted flags cls
  pure (cls, cs)

end StaticConfig.Pattern

/-!
Reading of patterns. Groups may set flags for what they hold, and flags set without a group
hold up to the end of the group around them.
-/
namespace StaticConfig.Pattern

/-- What is open while a pattern is read: an alternative whose parts are known up to here, after
other alternatives, within a group. Lists are in reverse. -/
structure Frame where
  index : Option Nat
  /-- The flags that hold again after the group. -/
  outer : Flags
  choices : List Pattern
  parts : List Pattern

structure Reading where
  flags : Flags
  choices : List Pattern
  /-- The parts of the present alternative; none stands for flags, which cannot be repeated. -/
  parts : List (Option Pattern)
  frames : List Frame
  /-- Names of groups by index. -/
  names : List (Nat × String)
  groups : Nat

namespace Reading

def start : Reading := ⟨startFlags, [], [], [], [], 0⟩

def push (r : Reading) (p : Pattern) : Reading :=
  { r with parts := some p :: r.parts }

/-- The parts of the present alternative as a pattern. -/
def choice (r : Reading) : Pattern :=
  ofParts (r.parts.reverse.filterMap id)

/-- The alternatives read so far as a pattern. -/
def whole (r : Reading) : Pattern :=
  ofChoices (r.choices.reverse ++ [r.choice])

/-- Begins another alternative. -/
def alternative (r : Reading) : Reading :=
  { r with choices := r.choice :: r.choices, parts := [] }

def openGroup (r : Reading) (index : Option Nat) (flags : Flags) : Reading :=
  { r with
    flags := flags, choices := [], parts := [],
    frames := ⟨index, r.flags, r.choices, r.parts.filterMap id⟩ :: r.frames,
    groups := index.getD r.groups }

def closeGroup (r : Reading) : Option Reading :=
  match r.frames with
  | [] => none
  | frame :: frames =>
    some { r with
      flags := frame.outer, choices := frame.choices,
      parts := some (group frame.index r.whole) :: frame.parts.map some, frames := frames }

/-- Repeats the last part. -/
def repeatLast (r : Reading) (least : Nat) (most : Option Nat) (greedy : Bool) : Option Reading :=
  match r.parts with
  | some p :: parts =>
    some { r with parts := some (repeated p least most (greedy != r.flags.swapGreed)) :: parts }
  | _ => none

end Reading

def setFlag (flags : Flags) (value : Bool) (c : Char) : Option Flags :=
  if c = 'i' then some { flags with ignoreCase := value }
  else if c = 'm' then some { flags with multiLine := value }
  else if c = 's' then some { flags with dotAll := value }
  else if c = 'U' then some { flags with swapGreed := value }
  else if c = 'u' then some { flags with unicode := value }
  else if c = 'R' then some { flags with anyLineEnd := value }
  else if c = 'x' then some { flags with spaced := value }
  else none

/-- Flags up to a colon or closing bracket; those after a dash are taken away. No flag may be
given twice, and some flag has to follow a dash. `given` holds the letters met so far. -/
def readFlags (flags : Flags) (given : List Char) : List Char → Option (Flags × List Char)
  | [] => none
  | c :: cs =>
    if c = ':' ∨ c = ')' then
      if given.head? = some '-' then none else some (flags, c :: cs)
    else if given.contains c then none
    else if c = '-' then readFlags flags (c :: given) cs
    else match setFlag flags (!given.contains '-') c with
      | some flags => readFlags flags (c :: given) cs
      | none => none

def isGroupName : List Char → Bool
  | [] => false
  | c :: cs => (c == '_' || Text.isAlphabetic c) && cs.all fun c =>
      c == '_' || c == '.' || c == '[' || c == ']' || Text.isAlphanumeric c

/-- A group after its opening bracket. -/
def readGroup (r : Reading) (cs : List Char) : Option (Reading × List Char) :=
  let named (cs : List Char) : Option (Reading × List Char) :=
    match cs.span (· != '>') with
    | (name, _ :: cs) =>
      let text := String.ofList name
      if isGroupName name && !r.names.any fun e => e.2 == text then
        let index := r.groups + 1
        some ({ r.openGroup (some index) r.flags with names := (index, text) :: r.names }, cs)
      else none
    | _ => none
  match spaced r.flags cs with
  | '?' :: '=' :: _ => none
  | '?' :: '!' :: _ => none
  | '?' :: '<' :: '=' :: _ => none
  | '?' :: '<' :: '!' :: _ => none
  | '?' :: 'P' :: '<' :: cs => named cs
  | '?' :: '<' :: cs => named cs
  | '?' :: cs => do
    let (flags, rest) ← readFlags r.flags [] cs
    match rest with
    | ':' :: rest => some (r.openGroup none flags, rest)
    | _ :: rest =>
      -- Brackets without any flag are no flags.
      if rest.length + 1 = cs.length then none
      else some ({ r with flags := flags, parts := none :: r.parts }, rest)
    | [] => none
  | cs => some (r.openGroup (some (r.groups + 1)) r.flags, cs)

/-- Greatest count of a repetition. -/
def countLimit : Nat := Nat.pow 2 32 - 1

def readDigits (flags : Flags) : Nat → List Char → List Char → List Char × List Char
  | 0, ds, cs => (ds.reverse, cs)
  | fuel + 1, ds, cs =>
    match cs with
    | c :: rest =>
      if c.isDigit then readDigits flags fuel (c :: ds) (spaced flags rest) else (ds.reverse, cs)
    | [] => (ds.reverse, [])

/-- A decimal number with white space around it. -/
def readCount (flags : Flags) (cs : List Char) : Option (Nat × List Char) :=
  let (ds, cs) := readDigits flags (cs.length + 1) [] (cs.dropWhile Text.isBlank)
  match if ds.isEmpty then none else Text.readNat 10 0 ds with
  | some n =>
    if n ≤ countLimit then some (n, spaced flags (cs.dropWhile Text.isBlank)) else none
  | none => none

/-- A repetition sign that may be followed by a question mark, which makes it lazy. -/
def readGreed : List Char → Bool × List Char
  | '?' :: cs => (false, cs)
  | cs => (true, cs)

/-- A counted repetition after its opening brace. -/
def readCounted (r : Reading) (cs : List Char) : Option (Reading × List Char) := do
  let flags := r.flags
  let (least, cs) ← readCount flags (spaced flags cs)
  let (most, cs) ←
    match cs with
    | ',' :: cs =>
      match spaced flags cs with
      | '\x7d' :: cs => some (none, '\x7d' :: cs)
      | cs => (readCount flags cs).map fun p => (some p.1, p.2)
    | cs => some (some least, cs)
  match cs with
  | '\x7d' :: cs =>
    let (greedy, cs) := readGreed (spaced flags cs)
    if most.any (· < least) then none
    else do
      let r ← r.repeatLast least most greedy
      pure (r, cs)
  | _ => none

def atomPattern (flags : Flags) : Atom → Option Pattern
  | .char c => some (.one (folded flags (.single c)))
  | .cls c => (admitted flags c).map .one
  | .look l => some (.look l)

/-- Any character, or any but a line end. -/
def dot (flags : Flags) : CharClass :=
  if flags.dotAll then .any
  else if flags.anyLineEnd then .compl (.union (.single '\n') (.single '\r'))
  else .compl (.single '\n')

def lineStart (flags : Flags) : Look :=
  if !flags.multiLine then .textStart
  else if flags.anyLineEnd then .anyLineStart else .lineStart

def lineEnd (flags : Flags) : Look :=
  if !flags.multiLine then .textEnd
  else if flags.anyLineEnd then .anyLineEnd else .lineEnd

/-- Reads the next part of the pattern. -/
def readPart (r : Reading) (c : Char) (cs : List Char) : Option (Reading × List Char) :=
  let flags := r.flags
  let times (least : Nat) (most : Option Nat) : Option (Reading × List Char) :=
    let (greedy, cs) := readGreed cs
    (r.repeatLast least most greedy).map fun r => (r, cs)
  if c = '(' then readGroup r cs
  else if c = ')' then r.closeGroup.map fun r => (r, cs)
  else if c = '|' then some (r.alternative, cs)
  else if c = '[' then (readClass flags (c :: cs)).map fun p => (r.push (.one p.1), p.2)
  else if c = '?' then times 0 (some 1)
  else if c = '*' then times 0 none
  else if c = '+' then times 1 none
  else if c = '\x7b' then readCounted r cs
  else if c = '\\' then do
    let (atom, cs) ← readEscape flags cs
    let p ← atomPattern flags atom
    pure (r.push p, cs)
  else if c = '.' then (admitted flags (dot flags)).map fun cls => (r.push (.one cls), cs)
  else if c = '^' then some (r.push (.look (lineStart flags)), cs)
  else if c = '$' then some (r.push (.look (lineEnd flags)), cs)
  else some (r.push (.one (folded flags (.single c))), cs)

def readFrom : Nat → Reading → List Char → Option Reading
  | 0, _, _ => none
  | fuel + 1, r, cs =>
    match spaced r.flags cs with
    | [] => some r
    | c :: cs => do
      let (r, cs) ← readPart r c cs
      readFrom fuel r cs

/-- How deep a pattern may be nested. -/
def depthLimit : Nat := 250

/-- How many instructions a pattern may have. -/
def sizeLimit : Nat := 300000

/-- A pattern with the names of its groups, by index. -/
structure Named where
  pattern : Pattern
  names : List (Nat × String)

/-- The pattern that a text describes. -/
def read? (s : String) : Option Named := do
  let cs := s.toList
  let r ← readFrom (cs.length + 1) .start cs
  let p := r.whole
  if r.frames.isEmpty && decide (p.depth ≤ depthLimit) && decide (p.codeSize ≤ sizeLimit) then
    some ⟨p, r.names⟩
  else none

/-- The names of the capturing groups from the first on. -/
def Named.groupNames (n : Named) : List (Option String) :=
  (List.range n.pattern.groupCount).map fun i => n.names.lookup (i + 1)

end StaticConfig.Pattern
