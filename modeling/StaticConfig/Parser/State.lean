import StaticConfig.Body
import StaticConfig.Token.Lexer

/-!
The state of parsing: the current token and the cursor behind it. Inside parentheses and square
brackets newlines do not count, so while `nesting` is positive they are passed over when the
next token is fetched.
-/
namespace StaticConfig.Parser

structure State where
  source : Source
  cursor : Cursor
  tok : Token
  nesting : Nat
  deriving Inhabited

abbrev Parse := StateT State (Except SyntaxError)

/-- The first token that is not a newline, looking past at most `limit` of them. -/
def significant (source : Source) : Nat → Token × Cursor → Except SyntaxError (Token × Cursor)
  | 0, found => .ok found
  | limit + 1, (tok, cursor) =>
    if tok.kind = .newline then do significant source limit (← Lexer.next source cursor)
    else .ok (tok, cursor)

/-- The first token from the cursor on, or the first one that is not a newline. -/
def fetch (source : Source) (nested : Bool) (cursor : Cursor) :
    Except SyntaxError (Token × Cursor) := do
  let found ← Lexer.next source cursor
  if nested && found.1.kind == .newline then
    significant source (found.2.rest.length + 1) found
  else pure found

/-- A state at the first token from the cursor on. -/
def start (source : Source) (cursor : Cursor) (nesting : Nat) : Except SyntaxError State := do
  let (tok, cursor) ← fetch source (decide (0 < nesting)) cursor
  pure ⟨source, cursor, tok, nesting⟩

/-- Goes on to the next token. -/
def advance : Parse Unit := do
  let s ← get
  let (tok, cursor) ← fetch s.source (decide (0 < s.nesting)) s.cursor
  set { s with tok := tok, cursor := cursor }

/-- Goes on to the first token that is not a newline, from the current one on. -/
def skipNewlines : Parse Unit := do
  let s ← get
  if s.tok.kind = .newline then
    let (tok, cursor) ← significant s.source (s.cursor.rest.length + 1) (s.tok, s.cursor)
    set { s with tok := tok, cursor := cursor }

def current : Parse Token := do
  pure (← get).tok

/-- The token after the current one, newlines included. -/
def peek : Parse Token := do
  let s ← get
  let (tok, _) ← Lexer.next s.source s.cursor
  pure tok

def fail {α : Type} (span : Span) (fault : SyntaxFault) : Parse α :=
  throw (span.error fault)

/-- Fails at the current token. -/
def failHere {α : Type} (fault : SyntaxFault) : Parse α := do
  fail (← current).span fault

def sees (symbol : String) : Parse Bool := do
  pure ((← current).isSymbol symbol)

def seesWord (word : String) : Parse Bool := do
  pure ((← current).isWord word)

def enter : Parse Unit :=
  modify fun s => { s with nesting := s.nesting + 1 }

def leave : Parse Unit :=
  modify fun s => { s with nesting := s.nesting - 1 }

/-- Passes the symbol, which has to stand here. -/
def expect (symbol : String) (place : Expectation) : Parse Unit := do
  if ← sees symbol then advance else failHere (.missing symbol place)

/-- Passes an identifier and gives its text. -/
def expectName (fault : SyntaxFault) : Parse String := do
  let tok ← current
  if tok.kind = .ident then
    advance
    pure tok.text
  else failHere fault

end StaticConfig.Parser
