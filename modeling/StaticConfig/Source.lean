import StaticConfig.Text.Inspect

/-!
Pieces of configuration text and places in them. Offsets count bytes of UTF-8 from zero; lines
and columns count from one, columns in characters.
-/
namespace StaticConfig

structure Source where
  file : String
  text : String
  deriving DecidableEq, Inhabited

/-- Number of bytes of the characters. -/
def byteLength (cs : List Char) : Nat :=
  cs.foldr (fun c n => c.utf8Size + n) 0

/-- The characters left after the first `n` bytes. -/
def dropBytes : Nat → List Char → List Char
  | _, [] => []
  | n, c :: cs => if n = 0 then c :: cs else dropBytes (n - c.utf8Size) cs

/-- The characters that start within the first `n` bytes. -/
def takeBytes : Nat → List Char → List Char
  | _, [] => []
  | n, c :: cs => if n = 0 then [] else c :: takeBytes (n - c.utf8Size) cs

namespace Source

def size (s : Source) : Nat :=
  s.text.utf8ByteSize

def slice (s : Source) (start stop : Nat) : List Char :=
  takeBytes (stop - start) (dropBytes start s.text.toList)

/-- Byte ranges of the lines that end in a newline, without the line end. `prior` is the
character before the current one and `start` the first byte of the current line. -/
def closedLines (prior : Char) (start offset : Nat) : List Char → List (Nat × Nat) × Nat
  | [] => ([], start)
  | c :: cs =>
    if c = '\n' then
      let rest := closedLines c (offset + 1) (offset + 1) cs
      ((start, if prior = '\r' then offset - 1 else offset) :: rest.1, rest.2)
    else closedLines c start (offset + c.utf8Size) cs

/-- Byte ranges of all lines. A text that ends in a newline has a last line at its last byte. -/
def lines (s : Source) : List (Nat × Nat) :=
  let (closed, start) := closedLines ' ' 0 0 s.text.toList
  closed ++
    if start < s.size then [(start, s.size)]
    else if s.size = 0 then [(0, 0)]
    else [(s.size - 1, s.size - 1)]

/-- Text of the line with the given index, counted from zero. -/
def line (s : Source) (index : Nat) : String :=
  match s.lines[index]? with
  | some (start, stop) => String.ofList (s.slice start stop)
  | none => ""

/-- Line and column of a byte offset, both counted from one. -/
def position (s : Source) (offset : Nat) : Nat × Nat :=
  let started := s.lines.takeWhile fun l => decide (l.1 ≤ offset)
  let index := max 1 started.length - 1
  let start := (s.lines[index]?.getD (0, 0)).1
  (index + 1, (s.slice start offset).length + 1)

def padded (width : Nat) (s : String) : String :=
  s ++ "".pushn ' ' (width - s.length)

/-- A message about a place, with the line shown and the column pointed at. -/
def message (s : Source) (line col : Nat) (kind text : String) : String :=
  if s.lines.length < line then
    s.file ++ ": invalid line " ++ toString line ++ " specified"
  else
    let width := (toString line).length + 1
    let shown := if line = 0 then "" else s.line (line - 1)
    "\n--> " ++ s.file ++ ":" ++ toString line ++ ":" ++ toString col ++ "\n"
      ++ padded width "" ++ "|\n"
      ++ padded width (toString line) ++ "| " ++ shown ++ "\n"
      ++ padded width "" ++ "| " ++ padded (max col 1 - 1) "" ++ "^\n"
      ++ kind ++ ": " ++ text

end Source

/-- A range of source text, with the line and column where it starts. -/
structure Span where
  source : Source
  line : Nat
  col : Nat
  start : Nat
  stop : Nat
  deriving DecidableEq, Inhabited

namespace Span

def text (s : Span) : String :=
  String.ofList (s.source.slice s.start s.stop)

def message (s : Span) (kind text : String) : String :=
  s.source.message s.line s.col kind text

/-- The range from the start of `s` to the later of the two ends. -/
def through (s other : Span) : Span :=
  { s with stop := max other.stop s.stop }

/-- Where the range starts, as `file:line:column`. -/
def place (s : Span) : String :=
  s.source.file ++ ":" ++ toString s.line ++ ":" ++ toString s.col

/-- Longest escaped text that `outline` shows in full, in bytes. -/
def outlineLimit : Nat := 32

/-- The characters of exactly the first `n` bytes, if a character ends there. -/
def cutAt (n : Nat) (cs : List Char) : Option (List Char) :=
  let kept := takeBytes n cs
  if byteLength kept = n then some kept else none

/-- The numbers of the span and the start of its text, escaped. There is none when the limit
falls inside a character of a longer text. -/
def outline (s : Span) : Option String :=
  let shown := Text.escapeLine s.text.toList
  let numbers := toString s.line ++ ":" ++ toString s.col ++ ":" ++ toString s.start ++ ":"
    ++ toString s.stop
  if byteLength shown ≤ outlineLimit then
    some (numbers ++ ", \"" ++ String.ofList shown ++ "\"")
  else
    (cutAt outlineLimit shown).map fun cut =>
      numbers ++ ", \"" ++ String.ofList cut ++ "...\""

end Span

end StaticConfig
