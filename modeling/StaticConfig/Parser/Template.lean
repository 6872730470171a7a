import StaticConfig.Json.Reader
import StaticConfig.Token.Basic

/-!
The text of quoted templates: escape sequences are decoded and doubled dollar or percent signs
before a brace stand for one. An interpolation ends the text before it.
-/
namespace StaticConfig.Parser

def hexNumber (cs : List Char) : Option Nat :=
  Text.readNat 16 0 cs

/-- The character with the given hexadecimal code, if there is one. -/
def codePoint? (cs : List Char) : Option Char :=
  match hexNumber cs with
  | some n => if n.isValidChar then some (Char.ofNat n) else none
  | none => none

def escaped? (c : Char) : Option Char :=
  if c = 'n' then some '\n'
  else if c = 'r' then some '\r'
  else if c = 't' then some '\t'
  else if c = '"' then some '"'
  else if c = '\\' then some '\\'
  else none

/-- Literal text of a template, and the rest after the mark of the interpolation that ends it,
with its offset. -/
structure Chunk where
  text : List Char
  rest : Option (List Char × Nat)

def Chunk.prepend (cs : List Char) (c : Chunk) : Chunk :=
  { c with text := cs ++ c.text }

/-- Reads the literal text at the start of a template whose token covers `span`. -/
def readChunk (span : Span) : List Char → Nat → Except SyntaxError Chunk
  | [], _ => .ok ⟨[], none⟩
  | '\\' :: 'u' :: a :: b :: c :: d :: cs, offset =>
    match codePoint? [a, b, c, d] with
    | some ch => (readChunk span cs (offset + 6)).map (Chunk.prepend [ch])
    | none => .error (span.error .invalidCodePoint)
  | '\\' :: 'U' :: a :: b :: c :: d :: e :: f :: g :: h :: cs, offset =>
    match codePoint? [a, b, c, d, e, f, g, h] with
    | some ch => (readChunk span cs (offset + 10)).map (Chunk.prepend [ch])
    | none => .error (span.error .invalidCodePoint)
  | '$' :: '$' :: '\x7b' :: cs, offset =>
    (readChunk span cs (offset + 3)).map (Chunk.prepend ['$', '\x7b'])
  | '%' :: '%' :: '\x7b' :: cs, offset =>
    (readChunk span cs (offset + 3)).map (Chunk.prepend ['%', '\x7b'])
  | '%' :: '\x7b' :: _, _ => .error (span.error .directive)
  | '$' :: '\x7b' :: cs, offset => .ok ⟨[], some (cs, offset + 2)⟩
  | '\\' :: c :: cs, offset =>
    match escaped? c with
    | some ch => (readChunk span cs (offset + 2)).map (Chunk.prepend [ch])
    | none =>
      .error (span.error (if c = 'u' ∨ c = 'U' then .invalidCodePoint else .unknownEscape c))
  | ['\\'], _ => .error (span.error .invalidEscape)
  | c :: cs, offset => (readChunk span cs (offset + c.utf8Size)).map (Chunk.prepend [c])

end StaticConfig.Parser
