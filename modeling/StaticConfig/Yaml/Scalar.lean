import StaticConfig.Text.Radix

/-!
Places in a YAML text. A cursor knows its line and column; a carriage return with the newline
after it is one line break.
-/
namespace StaticConfig.Yaml

structure Cursor where
  rest : List Char
  index : Nat
  line : Nat
  column : Nat
  deriving Inhabited

def isSpaceOrTab (c : Char) : Bool := c == ' ' || c == '\t'

def isBreak (c : Char) : Bool :=
  c == '\n' || c == '\r' || [0x85, 0x2028, 0x2029].contains c.toNat

/-- Characters of names of anchors and tags. -/
def isNameChar (c : Char) : Bool := c.isAlphanum || c == '_' || c == '-'

/-- Nothing but blanks, breaks or the end stands here. -/
def endsWord : List Char → Bool
  | [] => true
  | c :: _ => isSpaceOrTab c || isBreak c

def endsLine : List Char → Bool
  | [] => true
  | c :: _ => isBreak c

/-- The line break that stands here, as it counts in a text, and how many characters it has. -/
def lineBreak : List Char → Option (Char × Nat)
  | '\r' :: '\n' :: _ => some ('\n', 2)
  | c :: _ =>
    if isBreak c then some (if c.toNat = 0x2028 ∨ c.toNat = 0x2029 then c else '\n', 1) else none
  | [] => none

/-- Markers of documents stand at the start of a line. -/
def isMarker (mark : Char) : List Char → Bool
  | a :: b :: c :: cs => a == mark && b == mark && c == mark && endsWord cs
  | _ => false

namespace Cursor

def ofText (cs : List Char) : Cursor := ⟨cs, 0, 0, 0⟩

def next (c : Cursor) : Option Char := c.rest.head?

/-- Passes characters within a line. -/
def skip (c : Cursor) (count : Nat) : Cursor :=
  ⟨c.rest.drop count, c.index + count, c.line, c.column + count⟩

/-- Passes a line break, if one stands here. -/
def skipBreak (c : Cursor) : Cursor :=
  match lineBreak c.rest with
  | some (_, n) => ⟨c.rest.drop n, c.index + n, c.line + 1, 0⟩
  | none => c

def skipWhile (c : Cursor) (p : Char → Bool) : Cursor :=
  c.skip (c.rest.takeWhile p).length

/-- A document begins or ends here. -/
def atMarker (c : Cursor) : Bool :=
  c.column == 0 && (isMarker '-' c.rest || isMarker '.' c.rest)

/-- Passes blanks and a comment up to the end of the line; nothing else may stand there. -/
def skipToLineEnd (c : Cursor) : Option Cursor :=
  let c := c.skipWhile isSpaceOrTab
  let c := if c.next == some '#' then c.skipWhile fun x => !isBreak x else c
  if endsLine c.rest then some c else none

end Cursor

end StaticConfig.Yaml

/-!
The texts of YAML scalars: plain, in quotes, and as blocks. A line break within a plain or quoted
text stands for a space, and one followed by empty lines for those.
-/
namespace StaticConfig.Yaml

/-- White space between two words of a text. -/
structure Gap where
  /-- Blanks, in reverse, so long as no line has ended. -/
  blanks : List Char
  broken : Bool
  first : Option Char
  /-- Later line breaks, in reverse. -/
  later : List Char

namespace Gap

def empty : Gap := ⟨[], false, none, []⟩

/-- A gap after a line break that was escaped. -/
def escaped : Gap := ⟨[], true, none, []⟩

/-- What the gap stands for. -/
def text (g : Gap) : List Char :=
  if g.broken then
    match g.first with
    | some '\n' => if g.later.isEmpty then [' '] else g.later.reverse
    | some c => c :: g.later.reverse
    | none => g.later.reverse
  else g.blanks.reverse

end Gap

/-- Reads a gap. Tabs may not indent lines by less than `least`. -/
def readGap (least : Nat) : Nat → Gap → Cursor → Option (Gap × Cursor)
  | 0, g, c => some (g, c)
  | fuel + 1, g, c =>
    match c.next with
    | none => some (g, c)
    | some x =>
      if isSpaceOrTab x then
        if g.broken then
          if x = '\t' ∧ c.column < least then none else readGap least fuel g (c.skip 1)
        else readGap least fuel { g with blanks := x :: g.blanks } (c.skip 1)
      else match lineBreak c.rest with
        | some (b, _) =>
          let g : Gap :=
            if g.broken then { g with later := b :: g.later } else ⟨[], true, some b, []⟩
          readGap least fuel g c.skipBreak
        | none => some (g, c)

def isFlowSign (c : Char) : Bool := [',', '[', ']', '\x7b', '\x7d'].contains c

/-- The word of a plain scalar that stands here, in reverse. Within brackets a colon may not
stand directly before a sign of the brackets. -/
def readWord (inFlow : Bool) : List Char → Nat → Cursor → Option (List Char × Cursor)
  | out, 0, c => some (out, c)
  | out, fuel + 1, c =>
    match c.rest with
    | [] => some (out, c)
    | x :: more =>
      if isSpaceOrTab x || isBreak x then some (out, c)
      else if inFlow && x == ':' && more.head?.any fun y => isFlowSign y || y == '?' then none
      else if x == ':' && endsWord more then some (out, c)
      else if inFlow && isFlowSign x then some (out, c)
      else readWord inFlow (x :: out) fuel (c.skip 1)

/-- A plain scalar up to a comment, a sign or a line with less indentation. Gives also whether
it ended at the start of a line. -/
def readPlain (inFlow : Bool) (indent : Nat) :
    Nat → List Char → Gap → Cursor → Option (List Char × Bool × Cursor)
  | 0, _, _, _ => none
  | fuel + 1, out, gap, c =>
    if c.atMarker || c.next == some '#' then some (out, gap.broken, c)
    else do
      let (word, after) ← readWord inFlow [] (c.rest.length + 1) c
      if word.isEmpty then some (out, gap.broken, after)
      else
        let out := word ++ (gap.text.reverse ++ out)
        let (gap, c) ← readGap indent (after.rest.length + 1) .empty after
        if gap.blanks.isEmpty && !gap.broken then some (out, false, c)
        else if !inFlow && decide (c.column < indent) then some (out, gap.broken, c)
        else readPlain inFlow indent fuel out gap c

/-- Escapes with a value of their own, by code point. -/
def simpleEscapes : List (Char × Nat) := [
  ('0', 0), ('a', 7), ('b', 8), ('t', 9), ('\t', 9), ('n', 10), ('v', 11), ('f', 12), ('r', 13),
  ('e', 27), (' ', 32), ('"', 34), ('/', 47), ('\\', 92), ('N', 0x85), ('_', 0xa0), ('L', 0x2028),
  ('P', 0x2029)]

/-- Escapes that give a code point with so many hexadecimal digits. -/
def codeEscapes : List (Char × Nat) := [('x', 2), ('u', 4), ('U', 8)]

/-- A character for an escape, and the number of characters after the backslash. -/
def readEscape : List Char → Option (Char × Nat)
  | [] => none
  | e :: cs =>
    match simpleEscapes.lookup e with
    | some n => some (Char.ofNat n, 1)
    | none => do
      let count ← codeEscapes.lookup e
      let ds := cs.take count
      if ds.length < count then none
      else do
        let n ← Text.readNat 16 0 ds
        if n.isValidChar then some (Char.ofNat n, count + 1) else none

/-- A scalar in quotes, whose opening quote has been read. -/
def readQuoted (single : Bool) : Nat → List Char → Cursor → Option (List Char × Cursor)
  | 0, _, _ => none
  | fuel + 1, out, c =>
    let afterGap (gap : Gap) (c : Cursor) : Option (List Char × Cursor) := do
      let (gap, c) ← readGap 0 (c.rest.length + 1) gap c
      if c.atMarker then none else readQuoted single fuel (gap.text.reverse ++ out) c
    match c.rest with
    | [] => none
    | x :: more =>
      if c.atMarker then none
      else if isSpaceOrTab x || isBreak x then afterGap .empty c
      else if single then
        if x = '\'' then
          if more.head? = some '\'' then readQuoted single fuel ('\'' :: out) (c.skip 2)
          else some (out, c.skip 1)
        else readQuoted single fuel (x :: out) (c.skip 1)
      else if x = '"' then some (out, c.skip 1)
      else if x = '\\' then
        if more.head?.any isBreak then afterGap .escaped (c.skip 1).skipBreak
        else do
          let (e, n) ← readEscape more
          readQuoted single fuel (e :: out) (c.skip (n + 1))
      else readQuoted single fuel (x :: out) (c.skip 1)

/-- What happens to the line breaks at the end of a block. -/
inductive Chomp where
  | strip
  | clip
  | keep
  deriving DecidableEq

/-- How a block begins: its way of ending, and its indentation if that is given. -/
def readBlockHeader (cs : List Char) : Option (Chomp × Option Nat × Nat) :=
  let chomp? (c : Char) : Option Chomp :=
    if c = '+' then some .keep else if c = '-' then some .strip else none
  let width? (c : Char) : Option Nat :=
    if c.isDigit then some (c.toNat - '0'.toNat) else none
  match cs with
  | [] => some (.clip, none, 0)
  | a :: more =>
    let b := more.head?
    match chomp? a, width? a with
    | some chomp, _ =>
      match b.bind width? with
      | some 0 => none
      | some n => some (chomp, some n, 2)
      | none => some (chomp, none, 1)
    | none, some 0 => none
    | none, some n =>
      match b.bind chomp? with
      | some chomp => some (chomp, some n, 2)
      | none => some (.clip, some n, 1)
    | none, none => some (.clip, none, 0)

/-- Empty lines of a block, in reverse, with the deepest indentation met. Without an indentation
any number of spaces belongs to it. -/
def readEmptyLines (indent : Option Nat) :
    Nat → Nat → List Char → Cursor → Option (Nat × List Char × Cursor)
  | 0, _, _, _ => none
  | fuel + 1, deepest, breaks, c =>
    let spaces := (c.rest.takeWhile (· == ' ')).length
    let c := c.skip (match indent with
      | some n => min spaces (n - c.column)
      | none => spaces)
    let deepest := max deepest c.column
    if c.next == some '\t' && indent.all (c.column < ·) then none
    else match lineBreak c.rest with
      | some (b, _) => readEmptyLines indent fuel deepest (b :: breaks) c.skipBreak
      | none => some (deepest, breaks, c)

/-- The lines of a block. `last` is the break that ended the line before, and `breaks` are those
of empty lines after it. -/
def readBlockLines (folded : Bool) (indent : Nat) :
    Nat → List Char → Option Char → List Char → Bool → Cursor →
      Option (List Char × Option Char × List Char × Cursor)
  | 0, _, _, _, _, _ => none
  | fuel + 1, out, last, breaks, wasBlank, c =>
    if c.column = indent ∧ c.rest ≠ [] then do
      let isBlank := c.next.any isSpaceOrTab
      let joined :=
        if folded && last == some '\n' && !wasBlank && !isBlank then
          if breaks.isEmpty then ' ' :: out else out
        else last.toList ++ out
      let line := c.rest.takeWhile fun x => !isBreak x
      let out := line.reverse ++ (breaks ++ joined)
      let c := c.skip line.length
      let last := (lineBreak c.rest).map Prod.fst
      let (_, breaks, c) ← readEmptyLines (some indent) (c.rest.length + 2) 0 [] c.skipBreak
      readBlockLines folded indent fuel out last breaks isBlank c
    else some (out, last, breaks, c)

/-- A block scalar after its sign, in a block with the indentation `outer` if there is one. -/
def readBlock (folded : Bool) (outer : Option Nat) (c : Cursor) :
    Option (List Char × Cursor) := do
  let (chomp, width, used) ← readBlockHeader c.rest
  let c ← (c.skip used).skipToLineEnd
  let c := c.skipBreak
  let indent := width.map fun n => outer.getD 0 + n
  let (deepest, breaks, c) ← readEmptyLines indent (c.rest.length + 2) 0 [] c
  let least := match outer with
    | some n => n + 1
    | none => 1
  let indent := indent.getD (max deepest least)
  let (out, last, breaks, c) ←
    readBlockLines folded indent (c.rest.length + 2) [] none breaks false c
  let tail := match chomp with
    | .strip => []
    | .clip => last.toList
    | .keep => breaks ++ last.toList
  some (tail ++ out, c)

end StaticConfig.Yaml
