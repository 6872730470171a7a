import StaticConfig.Yaml.Scalar

/-!
The tokens of a YAML text. Blocks have tokens for their begin and end, which follow from the
indentation, and a key has a token before it also where it is only known by the colon after it.
-/
namespace StaticConfig.Yaml

inductive Token where
  | documentStart
  | documentEnd
  | version
  | tagPrefix (handle leading : String)
  | sequenceStart
  | mappingStart
  | blockEnd
  | flowSequenceStart
  | flowSequenceEnd
  | flowMappingStart
  | flowMappingEnd
  | entry
  | comma
  | key
  | value
  | anchor (name : String)
  | alias (name : String)
  | tag (handle suffix : String)
  | scalar (text : String) (plain : Bool)
  | streamEnd
  deriving DecidableEq, Inhabited

/-- A place where a key may have begun without a sign. -/
structure Candidate where
  /-- Nothing else than a key can stand there. -/
  required : Bool
  /-- The number of tokens before it. -/
  number : Nat
  index : Nat
  line : Nat
  column : Nat

/-- A key without a sign ends on its line and within so many characters. -/
def keyLimit : Nat := 1024

structure Lexer where
  cursor : Cursor
  tokens : Array Token
  /-- Columns of the open blocks, the innermost first. -/
  blocks : List Nat
  /-- One entry for the blocks and one for each open bracket, the innermost first. -/
  candidates : List (Option Candidate)
  keyAllowed : Bool

namespace Lexer

def start (cs : List Char) : Lexer := ⟨.ofText cs, #[], [], [none], true⟩

def inFlow (l : Lexer) : Bool := decide (1 < l.candidates.length)

def push (l : Lexer) (t : Token) : Lexer := { l with tokens := l.tokens.push t }

def skip (l : Lexer) (count : Nat) : Lexer := { l with cursor := l.cursor.skip count }

def allowKey (l : Lexer) (allowed : Bool) : Lexer := { l with keyAllowed := allowed }

/-- The column where content of the innermost block begins at least. -/
def least (l : Lexer) : Nat :=
  match l.blocks with
  | column :: _ => column + 1
  | [] => 0

/-- Passes blanks, breaks and comments. Tabs may not stand where a key can begin a block. -/
def skipBlanks : Nat → Lexer → Lexer
  | 0, l => l
  | fuel + 1, l =>
    let c := l.cursor
    let c := if c.column == 0 && c.next.any (·.toNat == 0xfeff) then c.skip 1 else c
    let tabs := l.inFlow || !l.keyAllowed
    let c := c.skipWhile fun x => x == ' ' || tabs && x == '\t'
    let c := if c.next == some '#' then c.skipWhile fun x => !isBreak x else c
    match lineBreak c.rest with
    | some _ =>
      skipBlanks fuel { l with cursor := c.skipBreak, keyAllowed := l.keyAllowed || !l.inFlow }
    | none => { l with cursor := c }

/-- Drops candidates that have become too long. -/
def dropStale (l : Lexer) : Option Lexer := do
  let c := l.cursor
  let stale (k : Candidate) : Bool :=
    decide (k.line < c.line) || decide (k.index + keyLimit < c.index)
  let candidates ← l.candidates.mapM fun
    | some k => if stale k then (if k.required then none else some none) else some (some k)
    | none => some none
  pure { l with candidates := candidates }

/-- Ends the blocks that are indented deeper than the column, or all blocks. -/
def endBlocks (l : Lexer) (column : Option Nat) : Lexer :=
  if l.inFlow then l
  else
    let ended := l.blocks.takeWhile fun b => column.all (· < b)
    { l with
      tokens := l.tokens ++ Array.replicate ended.length .blockEnd
      blocks := l.blocks.drop ended.length }

/-- Begins a block at the column, unless the innermost block is there already. The token goes
to the given number. -/
def beginBlock (l : Lexer) (column number : Nat) (t : Token) : Lexer :=
  if l.inFlow || l.blocks.head?.any (column ≤ ·) then l
  else { l with
    tokens := l.tokens.insertIdxIfInBounds number t
    blocks := column :: l.blocks }

/-- Gives up the innermost candidate, if it is not required. -/
def dropCandidate (l : Lexer) : Option Lexer :=
  match l.candidates with
  | some k :: rest => if k.required then none else some { l with candidates := none :: rest }
  | _ => some l

/-- Remembers that a key may begin here. -/
def markCandidate (l : Lexer) : Option Lexer :=
  if l.keyAllowed then do
    let l ← l.dropCandidate
    let c := l.cursor
    let required := !l.inFlow && l.blocks.head? == some c.column
    let k : Candidate := ⟨required, l.tokens.size, c.index, c.line, c.column⟩
    pure { l with candidates := some k :: l.candidates.drop 1 }
  else some l

def openFlow (l : Lexer) (t : Token) : Option Lexer := do
  let l ← l.markCandidate
  pure (({ l with candidates := none :: l.candidates }.allowKey true).skip 1 |>.push t)

def closeFlow (l : Lexer) (t : Token) : Option Lexer := do
  let l ← l.dropCandidate
  let candidates := if l.inFlow then l.candidates.drop 1 else l.candidates
  pure (({ l with candidates := candidates }.allowKey false).skip 1 |>.push t)

def fetchComma (l : Lexer) : Option Lexer := do
  let l ← l.dropCandidate
  pure ((l.allowKey true).skip 1 |>.push .comma)

def fetchEntry (l : Lexer) : Option Lexer := do
  if !l.inFlow && !l.keyAllowed then none
  let l := l.beginBlock l.cursor.column l.tokens.size .sequenceStart
  let l ← l.dropCandidate
  pure ((l.allowKey true).skip 1 |>.push .entry)

def fetchKey (l : Lexer) : Option Lexer := do
  if !l.inFlow && !l.keyAllowed then none
  let l := l.beginBlock l.cursor.column l.tokens.size .mappingStart
  let l ← l.dropCandidate
  pure ((l.allowKey !l.inFlow).skip 1 |>.push .key)

def fetchValue (l : Lexer) : Option Lexer :=
  match l.candidates with
  | some k :: rest =>
    let l := { l with
      tokens := l.tokens.insertIdxIfInBounds k.number .key, candidates := none :: rest }
    let l := l.beginBlock k.column k.number .mappingStart
    some ((l.allowKey false).skip 1 |>.push .value)
  | _ => do
    if !l.inFlow && !l.keyAllowed then none
    let l := l.beginBlock l.cursor.column l.tokens.size .mappingStart
    pure ((l.allowKey !l.inFlow).skip 1 |>.push .value)

/-- Characters that may follow the name of an anchor. -/
def endsAnchor (cs : List Char) : Bool :=
  endsWord cs || cs.head?.any fun c => "?:,]\x7d%@\x60".toList.contains c

def fetchAnchor (l : Lexer) (token : String → Token) : Option Lexer := do
  let l ← l.markCandidate
  let l := (l.allowKey false).skip 1
  let name := l.cursor.rest.takeWhile isNameChar
  let l := l.skip name.length
  if name.isEmpty || !endsAnchor l.cursor.rest then none
  pure (l.push (token (String.ofList name)))

def isTagChar (verbatim : Bool) (c : Char) : Bool :=
  isNameChar c || ";/?:@&=+$.!~*'()".toList.contains c || verbatim && ",[]".toList.contains c

/-- Bytes given by percent signs and two digits each, at the start of the text. -/
def readBytes : Nat → List Char → List UInt8 × List Char
  | fuel + 1, '%' :: a :: b :: cs =>
    match Text.readNat 16 0 [a, b] with
    | some n =>
      let (bytes, rest) := readBytes fuel cs
      (UInt8.ofNat n :: bytes, rest)
    | none => ([], '%' :: a :: b :: cs)
  | _, cs => ([], cs)

/-- A part of a tag, in reverse after `out`. -/
def readTagText (verbatim : Bool) : Nat → List Char → List Char → Option (List Char × List Char)
  | 0, _, _ => none
  | fuel + 1, out, cs =>
    match cs with
    | '%' :: _ =>
      let (bytes, rest) := readBytes cs.length cs
      match String.fromUTF8? ⟨bytes.toArray⟩ with
      | some s =>
        if s.isEmpty then none else readTagText verbatim fuel (s.toList.reverse ++ out) rest
      | none => none
    | c :: rest =>
      if isTagChar verbatim c then readTagText verbatim fuel (c :: out) rest
      else some (out.reverse, cs)
    | [] => some (out.reverse, [])

/-- A tag after its exclamation mark: handle, suffix and what follows. -/
def readTag (cs : List Char) : Option (String × String × List Char) :=
  match cs with
  | '<' :: cs => do
    let (text, rest) ← readTagText true (cs.length + 1) [] cs
    match rest with
    | '>' :: rest => if text.isEmpty then none else some ("", String.ofList text, rest)
    | _ => none
  | cs => do
    let name := cs.takeWhile isNameChar
    match cs.dropWhile isNameChar with
    | '!' :: rest => do
      let (text, rest) ← readTagText false (rest.length + 1) [] rest
      if text.isEmpty then none
      else some ("!" ++ String.ofList name ++ "!", String.ofList text, rest)
    | rest => do
      let (text, rest) ← readTagText false (rest.length + 1) name.reverse rest
      if text.isEmpty then some ("", "!", rest) else some ("!", String.ofList text, rest)

def fetchTag (l : Lexer) : Option Lexer := do
  let l ← l.markCandidate
  let l := (l.allowKey false).skip 1
  let (handle, suffix, rest) ← readTag l.cursor.rest
  if !(endsWord rest || l.inFlow && rest.head? == some ',') then none
  pure ((l.skip (l.cursor.rest.length - rest.length)).push (.tag handle suffix))

def fetchBlock (l : Lexer) (folded : Bool) : Option Lexer := do
  let l ← l.dropCandidate
  let l := (l.allowKey true).skip 1
  let (text, c) ← readBlock folded l.blocks.head? l.cursor
  pure ({ l with cursor := c }.push (.scalar (String.ofList text.reverse) false))

def fetchQuoted (l : Lexer) (single : Bool) : Option Lexer := do
  let l ← l.markCandidate
  let l := (l.allowKey false).skip 1
  let (text, c) ← readQuoted single (l.cursor.rest.length + 1) [] l.cursor
  pure ({ l with cursor := c }.push (.scalar (String.ofList text.reverse) false))

def fetchPlain (l : Lexer) : Option Lexer := do
  let l ← l.markCandidate
  let l := l.allowKey false
  let (text, atLineStart, c) ←
    readPlain l.inFlow l.least (l.cursor.rest.length + 1) [] .empty l.cursor
  let l := { l with cursor := c, keyAllowed := l.keyAllowed || atLineStart }
  pure (l.push (.scalar (String.ofList text.reverse) true))

def fetchMarker (l : Lexer) (t : Token) : Option Lexer := do
  let l ← (l.endBlocks none).dropCandidate
  pure ((l.allowKey false).skip 3 |>.push t)

/-- A version of YAML that can be read, and what follows it. -/
def readVersion (cs : List Char) : Option (List Char) :=
  let cs := cs.dropWhile isSpaceOrTab
  let minor := (cs.dropWhile Char.isDigit).drop 1
  match Text.readNat 10 0 (cs.takeWhile Char.isDigit), cs.dropWhile Char.isDigit with
  | some 1, '.' :: _ =>
    match minor.takeWhile Char.isDigit, Text.readNat 10 0 (minor.takeWhile Char.isDigit) with
    | _ :: _, some n => if n = 1 ∨ n = 2 then some (minor.dropWhile Char.isDigit) else none
    | _, _ => none
  | _, _ => none

/-- The handle and prefix of a tag directive, and what follows them. -/
def readTagPrefix (cs : List Char) : Option (String × String × List Char) :=
  match cs.dropWhile isSpaceOrTab with
  | '!' :: cs => do
    let name := cs.takeWhile isNameChar
    let (handle, rest) ← match cs.dropWhile isNameChar with
      | '!' :: rest => some ("!" ++ String.ofList name ++ "!", rest)
      | rest => if name.isEmpty then some ("!", rest) else none
    if !rest.head?.any isSpaceOrTab then none
    let rest := rest.dropWhile isSpaceOrTab
    let (text, rest) ← readTagText true (rest.length + 1) [] rest
    if text.isEmpty || !endsWord rest then none
    some (handle, String.ofList text, rest)
  | _ => none

def fetchDirective (l : Lexer) : Option Lexer := do
  let l ← (l.endBlocks none).dropCandidate
  let l := (l.allowKey false).skip 1
  let name := l.cursor.rest.takeWhile isNameChar
  let after := l.cursor.rest.dropWhile isNameChar
  if !endsWord after then none
  let (token, rest) ←
    if name = "YAML".toList then (readVersion after).map fun rest => (Token.version, rest)
    else if name = "TAG".toList then
      (readTagPrefix after).map fun r => (Token.tagPrefix r.1 r.2.1, r.2.2)
    else none
  let c ← (l.cursor.skip (l.cursor.rest.length - rest.length)).skipToLineEnd
  pure ({ l with cursor := c.skipBreak }.push token)

def fetchEnd (l : Lexer) : Option Lexer := do
  let l ← (l.endBlocks none).dropCandidate
  pure (l.push .streamEnd)

/-- Characters that a plain scalar may not begin with. -/
def isSign (c : Char) : Bool := "-?:,[]\x7b\x7d#&*!|>'\"%@\x60".toList.contains c

/-- Reads the next token, which begins with `x`. -/
def fetch (l : Lexer) (x : Char) (more : List Char) : Option Lexer :=
  let c := l.cursor
  let flow := l.inFlow
  if c.column = 0 ∧ x = '%' then l.fetchDirective
  else if c.column == 0 && isMarker '-' c.rest then l.fetchMarker .documentStart
  else if c.column == 0 && isMarker '.' c.rest then l.fetchMarker .documentEnd
  else if x = '[' then l.openFlow .flowSequenceStart
  else if x = '\x7b' then l.openFlow .flowMappingStart
  else if x = ']' then l.closeFlow .flowSequenceEnd
  else if x = '\x7d' then l.closeFlow .flowMappingEnd
  else if x = ',' then l.fetchComma
  else if x == '-' && endsWord more then l.fetchEntry
  else if x == '?' && (flow || endsWord more) then l.fetchKey
  else if x == ':' && (flow || endsWord more) then l.fetchValue
  else if x = '*' then l.fetchAnchor .alias
  else if x = '&' then l.fetchAnchor .anchor
  else if x = '!' then l.fetchTag
  else if x == '|' && !flow then l.fetchBlock false
  else if x == '>' && !flow then l.fetchBlock true
  else if x = '\'' then l.fetchQuoted true
  else if x = '"' then l.fetchQuoted false
  else if !(isSpaceOrTab x || isSign x) || x == '-' && !more.head?.any isSpaceOrTab
      || !flow && (x == '?' || x == ':') && !endsWord more then l.fetchPlain
  else none

def run : Nat → Lexer → Option (List Token)
  | 0, _ => none
  | fuel + 1, l => do
    let l ← (skipBlanks (l.cursor.rest.length + 1) l).dropStale
    match l.cursor.rest with
    | [] => do
      let l ← l.fetchEnd
      pure l.tokens.toList
    | x :: more => do
      let l ← (l.endBlocks (some l.cursor.column)).fetch x more
      run fuel l

end Lexer

/-- Characters that may stand in a YAML text. -/
def isPrintable (c : Char) : Bool :=
  let n := c.toNat
  n == 9 || n == 10 || n == 13 || n == 0x85 || (decide (0x20 ≤ n) && decide (n ≤ 0x7e))
    || (decide (0xa0 ≤ n) && n != 0xfffe && n != 0xffff)

/-- The tokens of a text. -/
def tokens? (s : String) : Option (List Token) :=
  let cs := s.toList
  if cs.all isPrintable then
    let cs := if cs.head?.any (·.toNat == 0xfeff) then cs.drop 1 else cs
    Lexer.run (2 * cs.length + 2) (.start cs)
  else none

end StaticConfig.Yaml
