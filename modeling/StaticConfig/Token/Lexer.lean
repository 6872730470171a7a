import StaticConfig.Token.Basic
import StaticConfig.Text.Quoted

/-!
Reading tokens from a text. A cursor holds the characters ahead with the byte offset, line and
column they start at, and `next` reads one token. The character NUL stands for the end of the
text wherever it occurs. A tab counts as four columns, and comments on a line as none.
-/
namespace StaticConfig

structure Cursor where
  rest : List Char
  offset : Nat
  line : Nat
  col : Nat
  deriving DecidableEq, Inhabited

namespace Cursor

def ofSource (s : Source) : Cursor :=
  ⟨s.text.toList, 0, 1, 1⟩

/-- A cursor over the byte range `start..stop` of a source. -/
def ofRange (s : Source) (start stop : Nat) : Cursor :=
  let place := s.position start
  ⟨s.slice start stop, min start stop, place.1, place.2⟩

end Cursor

/-- The end of the text, or the character that stands for it. -/
def atEnd : List Char → Bool
  | [] => true
  | c :: _ => c.toNat == 0

namespace Lexer

/-- What lies between two tokens at some point. -/
inductive Gap where
  | blank
  | lineComment
  /-- A comment that was opened at the given line and column. -/
  | blockComment (line col : Nat)

/-- Skips blanks and comments. A line comment ends before its newline. -/
def skipGap (source : Source) :
    Gap → List Char → Nat → Nat → Nat → Except SyntaxError Cursor
  | .blockComment l c, [], _, _, _ => .error ⟨source, l, c, .unterminatedComment⟩
  | _, [], offset, line, col => .ok ⟨[], offset, line, col⟩
  | .blank, '/' :: '*' :: cs, offset, line, col =>
    skipGap source (.blockComment line col) cs (offset + 2) line (col + 2)
  | .blank, '/' :: '/' :: cs, offset, line, col =>
    skipGap source .lineComment cs (offset + 2) line col
  | .blank, ch :: cs, offset, line, col =>
    if ch = ' ' then skipGap source .blank cs (offset + 1) line (col + 1)
    else if ch = '\t' then skipGap source .blank cs (offset + 1) line (col + 4)
    else if ch = '\r' then
      if cs.head? = some '\n' then skipGap source .blank cs (offset + 1) line col
      else .error ⟨source, line, col, .loneCarriageReturn⟩
    else if ch = '#' then skipGap source .lineComment cs (offset + 1) line col
    else .ok ⟨ch :: cs, offset, line, col⟩
  | .lineComment, ch :: cs, offset, line, col =>
    if ch = '\n' ∨ ch.toNat = 0 then .ok ⟨ch :: cs, offset, line, col⟩
    else skipGap source .lineComment cs (offset + ch.utf8Size) line col
  | .blockComment _ _, '*' :: '/' :: cs, offset, line, col =>
    skipGap source .blank cs (offset + 2) line (col + 2)
  | .blockComment l c, ch :: cs, offset, line, col =>
    if ch.toNat = 0 then .error ⟨source, l, c, .unterminatedComment⟩
    else if ch = '\n' then skipGap source (.blockComment l c) cs (offset + 1) (line + 1) 1
    else skipGap source (.blockComment l c) cs (offset + ch.utf8Size) line (col + 1)

/-- A construct that is open while a quoted template is read, with the line and column that an
error about it points at. -/
inductive Frame where
  | quoted (line col : Nat)
  /-- An interpolation with this many braces open inside it. -/
  | braces (depth : Nat) (line col : Nat)

/-- Reads to the end of the quoted template, with the innermost open construct first. Quotes
and braces of interpolations nest. -/
def skipTemplate (source : Source) (line : Nat) :
    Frame → List Frame → List Char → Nat → Nat → Except SyntaxError Cursor
  | .quoted l c, _, [], _, _ => .error ⟨source, l, c, .unterminatedString⟩
  | .braces _ l c, _, [], _, _ => .error ⟨source, l, c, .unterminatedSequence⟩
  | .quoted l c, outer, '\\' :: ch :: cs, offset, col =>
    if ch.toNat = 0 then .error ⟨source, l, c, .unterminatedString⟩
    else skipTemplate source line (.quoted l c) outer cs (offset + 1 + ch.utf8Size) (col + 2)
  | .quoted l c, outer, '$' :: '$' :: '\x7b' :: cs, offset, col =>
    skipTemplate source line (.quoted l c) outer cs (offset + 3) (col + 3)
  | .quoted l c, outer, '%' :: '%' :: '\x7b' :: cs, offset, col =>
    skipTemplate source line (.quoted l c) outer cs (offset + 3) (col + 3)
  | .quoted l c, outer, '$' :: '\x7b' :: cs, offset, col =>
    skipTemplate source line (.braces 0 line col) (.quoted l c :: outer) cs (offset + 2) (col + 2)
  | .quoted l c, outer, ch :: cs, offset, col =>
    if ch = '"' then
      match outer with
      | [] => .ok ⟨cs, offset + 1, line, col + 1⟩
      | frame :: outer => skipTemplate source line frame outer cs (offset + 1) (col + 1)
    else if ch.toNat = 0 ∨ ch = '\n' ∨ ch = '\\' then
      .error ⟨source, l, c, .unterminatedString⟩
    else skipTemplate source line (.quoted l c) outer cs (offset + ch.utf8Size) (col + 1)
  | .braces depth l c, outer, ch :: cs, offset, col =>
    if ch.toNat = 0 ∨ ch = '\n' then .error ⟨source, l, c, .unterminatedSequence⟩
    else if ch = '"' then
      skipTemplate source line (.quoted l c) (.braces depth l c :: outer) cs (offset + 1) (col + 1)
    else if ch = '\x7b' then
      skipTemplate source line (.braces (depth + 1) l c) outer cs (offset + 1) (col + 1)
    else if ch = '\x7d' then
      match depth, outer with
      | depth + 1, _ => skipTemplate source line (.braces depth l c) outer cs (offset + 1) (col + 1)
      | 0, frame :: outer => skipTemplate source line frame outer cs (offset + 1) (col + 1)
      | 0, [] => .ok ⟨cs, offset + 1, line, col + 1⟩
    else skipTemplate source line (.braces depth l c) outer cs (offset + ch.utf8Size) (col + 1)

/-- The token made of `cs`, which the cursor stands before, and the cursor after it. -/
def tokenOf (source : Source) (pos : Cursor) (kind : TokenKind) (cs rest : List Char) :
    Token × Cursor :=
  let stop := pos.offset + byteLength cs
  (⟨kind, String.ofList cs, ⟨source, pos.line, pos.col, pos.offset, stop⟩⟩,
    ⟨rest, stop, pos.line, pos.col + cs.length⟩)

/-- Splits off the decimal digits at the front. -/
def digits (cs : List Char) : List Char × List Char :=
  (cs.takeWhile Char.isDigit, cs.dropWhile Char.isDigit)

def isExponentMark (c : Char) : Bool :=
  c == 'e' || c == 'E'

def isSign (c : Char) : Bool :=
  c == '+' || c == '-'

/-- Splits off a fraction: a point and at least one digit. -/
def fraction : List Char → List Char × List Char
  | '.' :: d :: cs =>
    if d.isDigit then ('.' :: (digits (d :: cs)).1, (digits (d :: cs)).2)
    else ([], '.' :: d :: cs)
  | cs => ([], cs)

/-- Splits off an exponent. The flag tells whether its digits are missing. -/
def exponent : List Char → List Char × List Char × Bool
  | e :: cs =>
    if isExponentMark e then
      let sign := (cs.take 1).filter isSign
      let ds := digits (cs.drop sign.length)
      (e :: sign ++ ds.1, ds.2, ds.1.isEmpty)
    else ([], e :: cs, false)
  | [] => ([], [], false)

def readNumber (source : Source) (pos : Cursor) : Except SyntaxError (Token × Cursor) :=
  let whole := digits pos.rest
  let frac := fraction whole.2
  let expo := exponent frac.2
  let cs := whole.1 ++ frac.1 ++ expo.1
  let joined := match expo.2.1 with
    | c :: _ => c == '_' || c.isAlpha
    | [] => false
  if expo.2.2 || joined then
    .error ⟨source, pos.line, pos.col + cs.length, .invalidNumber⟩
  else .ok (tokenOf source pos .number cs expo.2.1)

def readTemplate (source : Source) (pos : Cursor) (cs : List Char) :
    Except SyntaxError (Token × Cursor) :=
  let start := pos.offset + 1
  match skipTemplate source pos.line (.quoted pos.line pos.col) [] cs start (pos.col + 1) with
  | .error e => .error e
  | .ok after =>
    let stop := after.offset - 1
    .ok (⟨.string, String.ofList (takeBytes (stop - start) cs),
      ⟨source, pos.line, pos.col + 1, start, stop⟩⟩, after)

def symbols : List (List Char) :=
  ["==", "!=", "<=", ">=", "=>", "&&", "||", "::", "...",
    "\x7b", "\x7d", "[", "]", "(", ")", "+", "-", "*", "/", "%", "<", ">", "=", "!", "?", ":",
    ",", "."].map String.toList

/-- The longest symbol that `cs` starts with. -/
def symbolAt (cs : List Char) : Option (List Char) :=
  symbols.find? fun s => s.isPrefixOf cs

/-- Reads the token that the cursor stands right before. -/
def readToken (source : Source) (pos : Cursor) : Except SyntaxError (Token × Cursor) :=
  match pos.rest with
  | [] => .ok (tokenOf source pos .eof [] [])
  | c :: cs =>
    if c.toNat = 0 then .ok (tokenOf source pos .eof [] (c :: cs))
    else if c = '\n' then
      .ok (⟨.newline, "\n", ⟨source, pos.line, pos.col, pos.offset, pos.offset + 1⟩⟩,
        ⟨cs, pos.offset + 1, pos.line + 1, 1⟩)
    else if c = '"' then readTemplate source pos cs
    else match symbolAt (c :: cs) with
      | some s => .ok (tokenOf source pos .symbol s ((c :: cs).drop s.length))
      | none =>
        if c.isDigit then readNumber source pos
        else if Text.isIdentifierStart c then
          .ok (tokenOf source pos .ident ((c :: cs).takeWhile Text.isIdentifierPart)
            ((c :: cs).dropWhile Text.isIdentifierPart))
        else .error ⟨source, pos.line, pos.col, .invalidCharacter⟩

/-- The next token, and the cursor after it. At the end of the text it is the end token, again
and again. -/
def next (source : Source) (pos : Cursor) : Except SyntaxError (Token × Cursor) := do
  let pos ← skipGap source .blank pos.rest pos.offset pos.line pos.col
  readToken source pos

/-- The tokens before the end or the first error, at most `limit` of them. -/
def tokensUpTo (source : Source) : Nat → Cursor → List Token × Option SyntaxError
  | 0, _ => ([], none)
  | limit + 1, pos =>
    match next source pos with
    | .error e => ([], some e)
    | .ok (tok, after) =>
      if tok.kind = .eof then ([tok], none)
      else
        let rest := tokensUpTo source limit after
        (tok :: rest.1, rest.2)

/-- All tokens up to the end token or the first error. Each takes at least one character. -/
def tokens (source : Source) (pos : Cursor) : List Token × Option SyntaxError :=
  tokensUpTo source (pos.rest.length + 1) pos

end Lexer

end StaticConfig
