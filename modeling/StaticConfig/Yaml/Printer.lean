import StaticConfig.Json.Printer
import StaticConfig.Yaml.Reader

/-!
YAML texts of JSON documents, in block style. A text is written plain where it reads back as the
same text, in single quotes where it does not, with escapes where it holds other characters than
printable ones, and as a block of lines where it has several.
-/
namespace StaticConfig.Yaml

/-- Characters that may stand for themselves. -/
def isVisible (c : Char) : Bool :=
  let n := c.toNat
  n == 10 || (decide (0x20 ≤ n) && decide (n ≤ 0x7e))
    || (decide (0xa0 ≤ n) && n != 0xfeff && n != 0xfffe && n != 0xffff)

/-- As a plain scalar the text is something else than a text. -/
def readsAsOther (s : String) : Bool :=
  s.isEmpty || isNull s || (bool? s).isSome || (narrow? s).isSome || isPaddedDigits s.toList
    || (float? s).isSome

/-- Some two characters that follow each other in the text have the property. -/
def anyPair (p : Char → Char → Bool) : List Char → Bool
  | a :: b :: cs => p a b || anyPair p (b :: cs)
  | _ => false

/-- The text begins with a sign, or has a sign of a key or a comment within it. -/
def hasSigns (cs : List Char) : Bool :=
  let opening := match cs with
    | c :: more =>
      "#,[]\x7b\x7d&*!|>'\"%@\x60".toList.contains c
        || (c == '?' || c == ':' || c == '-') && endsWord more
    | [] => false
  let marker := ["---", "..."].any fun m => m.toList.isPrefixOf cs
  opening || marker || cs.getLast? == some ':'
    || anyPair (fun a b => a == ':' && endsWord [b]) cs
    || anyPair (fun a b => b == '#' && endsWord [a]) cs

def hasBreak (cs : List Char) : Bool := cs.any isBreak

def atEnds (p : Char → Bool) (cs : List Char) : Bool :=
  cs.head?.any p || cs.getLast?.any p

/-- A space before a line break, or a character that has to be escaped. -/
def needsEscapes (cs : List Char) : Bool :=
  !cs.all isVisible || anyPair (fun a b => a == ' ' && isBreak b) cs

def plainAllowed (cs : List Char) : Bool :=
  !(needsEscapes cs || hasBreak cs || atEnds (· == ' ') cs || hasSigns cs)

def singleAllowed (cs : List Char) : Bool :=
  !(needsEscapes cs || anyPair (fun a b => isBreak a && b == ' ') cs)

def blockAllowed (cs : List Char) : Bool :=
  !(needsEscapes cs || cs.getLast? == some ' ')

def escapeLetters : List (Nat × Char) := [
  (0, '0'), (7, 'a'), (8, 'b'), (9, 't'), (10, 'n'), (11, 'v'), (12, 'f'), (13, 'r'), (27, 'e'),
  (34, '"'), (92, '\\'), (0x85, 'N'), (0xa0, '_'), (0x2028, 'L'), (0x2029, 'P')]

def escapeCode (n : Nat) : List Char :=
  let digits (width : Nat) : List Char := (Json.hexDigits width n).map Char.toUpper
  if n ≤ 0xff then 'x' :: digits 2
  else if n ≤ 0xffff then 'u' :: digits 4
  else 'U' :: digits 8

def escape (c : Char) : List Char :=
  if !isVisible c || isBreak c || c == '"' || c == '\\' then
    '\\' :: (match escapeLetters.lookup c.toNat with
      | some letter => [letter]
      | none => escapeCode c.toNat)
  else [c]

def doubleQuoted (cs : List Char) : List Char :=
  '"' :: cs.flatMap escape ++ ['"']

/-- Line breaks in single quotes: the first one of several newlines is written twice, and lines
are indented. -/
def singleBody (indent : Nat) (afterBreak : Bool) : List Char → List Char
  | [] => if afterBreak then List.replicate indent ' ' else []
  | c :: cs =>
    if isBreak c then
      (if !afterBreak && c == '\n' then ['\n', '\n'] else [c]) ++ singleBody indent true cs
    else
      (if afterBreak then List.replicate indent ' ' else [])
        ++ (if c = '\'' then ['\'', '\''] else [c]) ++ singleBody indent false cs

def singleQuoted (indent : Nat) (cs : List Char) : List Char :=
  '\'' :: singleBody indent false cs ++ ['\'']

/-- The lines of a block, each indented unless it is empty. -/
def blockBody (indent : Nat) (atStart : Bool) : List Char → List Char
  | [] => []
  | c :: cs =>
    if isBreak c then c :: blockBody indent true cs
    else (if atStart then List.replicate indent ' ' else []) ++ c :: blockBody indent false cs

/-- The step of the indentation. -/
def indentStep : Nat := 2

/-- How the end of a block is marked: as without a line break, with one, or with several. -/
def chompSign (cs : List Char) : List Char :=
  match cs.reverse with
  | [] => ['-']
  | [c] => if isBreak c then ['+'] else ['-']
  | c :: d :: _ => if !isBreak c then ['-'] else if isBreak d then ['+'] else []

def block (indent : Nat) (cs : List Char) : List Char :=
  let width := if cs.head?.any (fun c => c == ' ' || isBreak c) then Nat.toDigits 10 indentStep
    else []
  let ending := if cs.getLast?.any isBreak then [] else ['\n']
  '|' :: width ++ chompSign cs ++ '\n' :: blockBody indent true cs ++ ending

/-- A text on one line, or in quotes. -/
def line (indent : Nat) (s : String) : List Char :=
  let cs := s.toList
  if !readsAsOther s && plainAllowed cs then cs
  else if singleAllowed cs then singleQuoted indent cs
  else doubleQuoted cs

/-- A text with the end of its last line. -/
def text (indent : Nat) (s : String) : List Char :=
  let cs := s.toList
  if cs.contains '\n' then
    if blockAllowed cs then block indent cs else doubleQuoted cs ++ ['\n']
  else line indent s ++ ['\n']

/-- Keys up to this length stand before a colon on one line. -/
def keyLength : Nat := 128

def isSimpleKey (s : String) : Bool :=
  !hasBreak s.toList && decide (s.utf8ByteSize ≤ keyLength)

def pad (indent : Nat) : List Char := List.replicate indent ' '

/-- A document on one line, or a text. `nested` is the indentation of the lines of a text. -/
def leaf (nested : Nat) : Json → List Char
  | .null => "null\n".toList
  | .bool b => (if b then "true\n" else "false\n").toList
  | .number (.int n) => (toString n.toInt ++ "\n").toList
  | .number (.float f) => (Double.yaml.write f ++ "\n").toList
  | .string s => text nested s
  | .array _ => "[]\n".toList
  | .object _ => "\x7b\x7d\n".toList

mutual

/-- A document whose first line has been indented. -/
def continued (indent nested : Nat) : Json → List Char
  | .array (j :: js) => items indent true (j :: js)
  | .object (e :: es) => members indent true (e :: es)
  | j => leaf nested j

def items (indent : Nat) (isFirst : Bool) : List Json → List Char
  | [] => []
  | j :: js =>
    (if isFirst then [] else pad indent) ++ '-' :: ' ' ::
      (continued (indent + indentStep) (indent + indentStep) j ++ items indent false js)

def members (indent : Nat) (isFirst : Bool) : List (String × Json) → List Char
  | [] => []
  | (k, j) :: rest =>
    (if isFirst then [] else pad indent) ++
      (if isSimpleKey k then line indent k ++ ':' :: afterKey indent j
      else '?' :: ' ' :: (text (indent + indentStep) k ++ pad indent ++ ':' :: ' ' ::
        continued (indent + indentStep) (indent + indentStep) j)) ++ members indent false rest

/-- A document after the colon of a key. Items of an array are not indented further. -/
def afterKey (indent : Nat) : Json → List Char
  | .array (j :: js) => '\n' :: items indent false (j :: js)
  | .object (e :: es) => '\n' :: members (indent + indentStep) false (e :: es)
  | j => ' ' :: leaf (indent + indentStep) j

end

def write (j : Json) : String :=
  String.ofList (continued 0 indentStep j)

end StaticConfig.Yaml
