import StaticConfig.Source

/-!
Tokens of the configuration language, and what can be wrong with a text that has none or does
not parse.
-/
namespace StaticConfig

inductive TokenKind where
  | symbol
  /-- A quoted template; its span and text leave out the quotes. -/
  | string
  | number
  | ident
  | newline
  | eof
  deriving DecidableEq, Inhabited

structure Token where
  kind : TokenKind
  text : String
  span : Span
  deriving DecidableEq, Inhabited

namespace Token

def isSymbol (t : Token) (text : String) : Bool :=
  t.kind == .symbol && t.text == text

def isWord (t : Token) (text : String) : Bool :=
  t.kind == .ident && t.text == text

end Token

/-- Where an expected symbol was to stand. -/
inductive Expectation where
  | blockOpening
  | splatClosing
  | indexClosing
  | parenthesisClosing
  | conditional
  | forExpression
  | forClosing
  deriving DecidableEq

namespace Expectation

def text : Expectation → String
  | blockOpening => "to open block body"
  | splatClosing => "to close splat operator"
  | indexClosing => "to close index"
  | parenthesisClosing => "to close parenthesized expression"
  | conditional => "in conditional expression"
  | forExpression => "in for expression"
  | forClosing => "to close for expression"

end Expectation

inductive SyntaxFault where
  | invalidNumber
  | unterminatedSequence
  | unterminatedString
  | unterminatedComment
  | loneCarriageReturn
  | invalidCharacter
  | trailingToken
  | missing (symbol : String) (place : Expectation)
  | missingForName
  | missingFunctionName
  | missingItemEnd
  | openBody
  | missingItem
  | duplicateAttribute (name : String) (prior : Span)
  | labelSequence
  | missingIndex
  | missingAttributeName
  | missingExpression
  | missingCall
  | expansionNotLast
  | argumentSeparator
  | tupleSeparator
  | objectEquals
  | objectSeparator
  | missingIn
  | invalidEscape
  | invalidCodePoint
  | unknownEscape (c : Char)
  | directive
  | openInterpolation
  | tooDeep
  deriving DecidableEq

namespace SyntaxFault

def text : SyntaxFault → String
  | invalidNumber => "invalid number"
  | unterminatedSequence => "unterminated template sequence"
  | unterminatedString => "unterminated string"
  | unterminatedComment => "unterminated comment"
  | loneCarriageReturn => "\\r must be followed by \\n"
  | invalidCharacter => "invalid character"
  | trailingToken => "unexpected token after expression"
  | missing symbol place => "expecting `" ++ symbol ++ "` " ++ place.text
  | missingForName => "expecting identifier in for expression"
  | missingFunctionName => "expecting identifier in function name"
  | missingItemEnd => "expecting newline after attribute or block definition"
  | openBody => "unexpected end of file; expecting `\x7d`"
  | missingItem => "expecting an attribute or block definition"
  | duplicateAttribute name prior =>
    "attribute `" ++ name ++ "` was already defined at " ++ prior.place
  | labelSequence => "block labels must not contain template sequences"
  | missingIndex => "expecting an element index"
  | missingAttributeName => "expecting attribute name after `.`"
  | missingExpression => "expecting expression"
  | missingCall => "expecting `(` after function name"
  | expansionNotLast => "`...` may only be used with the final argument"
  | argumentSeparator => "expecting `,` or `)` in function call"
  | tupleSeparator => "expecting `,` or `]` in tuple"
  | objectEquals => "expecting `=` after object key"
  | objectSeparator => "expecting newline or `,` after object item"
  | missingIn => "expecting `in` in for expression"
  | invalidEscape => "invalid escape sequence"
  | invalidCodePoint => "invalid unicode escape sequence"
  | unknownEscape c => "invalid escape sequence `\\" ++ String.singleton c ++ "`"
  | directive => "template directives are not supported"
  | openInterpolation => "expecting `\x7d` to close interpolation"
  | tooDeep => "expression is nested too deeply"

end SyntaxFault

/-- A fault at a place of a source. -/
structure SyntaxError where
  source : Source
  line : Nat
  col : Nat
  fault : SyntaxFault
  deriving DecidableEq

/-- The fault at the start of the range. -/
def Span.error (s : Span) (fault : SyntaxFault) : SyntaxError :=
  ⟨s.source, s.line, s.col, fault⟩

namespace SyntaxError

def message (e : SyntaxError) : String :=
  e.source.message e.line e.col "error" e.fault.text

end SyntaxError

end StaticConfig
