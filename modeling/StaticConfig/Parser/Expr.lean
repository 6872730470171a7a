import StaticConfig.Parser.State
import StaticConfig.Parser.Template

/-!
Parsing expressions. Every function takes a bound on how deeply calls nest; each token passed
allows several levels, so the bound that `Parser.expression` computes from the length of the
text is never reached.
-/
namespace StaticConfig.Parser

/-- The rest of a function name with namespaces, such as `a::b::c`. -/
def qualified : Nat → String → Parse String
  | 0, _ => failHere .tooDeep
  | limit + 1, name => do
    if ← sees "::" then
      advance
      let part ← expectName .missingFunctionName
      qualified limit (name ++ "::" ++ part)
    else pure name

def wordValue? (word : String) : Option Value :=
  if word = "true" then some (.bool true)
  else if word = "false" then some (.bool false)
  else if word = "null" then some .nothing
  else none

/-- An element index written after a dot, as a number. -/
def legacyIndex? (text : String) : Option Number :=
  match Text.readNat 10 0 text.toList with
  | some n => if n < Nat.pow 2 64 then some (Number.ofFloat (Double.ofInt n)) else none
  | none => none

/-- The span of a template token with its quotes. -/
def withQuotes (span : Span) : Span :=
  { span with start := span.start - 1, stop := span.stop + 1, col := max span.col 2 - 1 }

/-- Folds the sign into a negated number. -/
def negated (span : Span) (op : UnaryOp) (e : Expr) : Expr :=
  match op, e with
  | .neg, .literal _ (.number n) => .literal span (.number n.neg)
  | op, e => .unary span op e

/-- A splat that ends at its last step, or at its mark. -/
def splat (e : Expr) (mark : Span) (each : List Step) : Expr :=
  .splat (e.span.through ((each.getLast?.map Step.span).getD mark)) e each

mutual

def parseExpr : Nat → Parse Expr
  | 0 => failHere .tooDeep
  | fuel + 1 => do
    let cond ← parseBinary fuel BinaryOp.levels
    if ← sees "?" then
      advance
      let yes ← parseExpr fuel
      expect ":" .conditional
      let no ← parseExpr fuel
      pure (.conditional (cond.span.through no.span) cond yes no)
    else pure cond

/-- Operands and operators of the given levels, loosest first. -/
def parseBinary : Nat → List (List BinaryOp) → Parse Expr
  | 0, _ => failHere .tooDeep
  | fuel + 1, [] => parseUnary fuel
  | fuel + 1, level :: tighter => do
    let lhs ← parseBinary fuel tighter
    parseOperators fuel level tighter lhs

/-- Operators of one level that follow the left operand. -/
def parseOperators : Nat → List BinaryOp → List (List BinaryOp) → Expr → Parse Expr
  | 0, _, _, _ => failHere .tooDeep
  | fuel + 1, level, tighter, lhs => do
    let tok ← current
    match level.find? fun op => tok.isSymbol op.text with
    | none => pure lhs
    | some op =>
      advance
      let rhs ← parseBinary fuel tighter
      parseOperators fuel level tighter (.binary (lhs.span.through rhs.span) op lhs rhs)

def parseUnary : Nat → Parse Expr
  | 0 => failHere .tooDeep
  | fuel + 1 => do
    let tok ← current
    let op? : Option UnaryOp :=
      if tok.isSymbol "-" then some .neg else if tok.isSymbol "!" then some .not else none
    match op? with
    | none => parsePostfix fuel
    | some op =>
      advance
      let e ← parseUnary fuel
      pure (negated (tok.span.through e.span) op e)

def parsePostfix : Nat → Parse Expr
  | 0 => failHere .tooDeep
  | fuel + 1 => do
    let e ← parsePrimary fuel
    parseSteps fuel e

/-- Attribute accesses, indices and splats that follow an expression. -/
def parseSteps : Nat → Expr → Parse Expr
  | 0, _ => failHere .tooDeep
  | fuel + 1, e => do
    let mark ← current
    if mark.isSymbol "." then
      advance
      let tok ← current
      match tok.kind with
      | .ident =>
        advance
        parseSteps fuel (e.follow (.attr (mark.span.through tok.span) tok.text))
      | .number =>
        match legacyIndex? tok.text with
        | none => failHere .missingIndex
        | some n =>
          advance
          parseSteps fuel (e.follow (.index (mark.span.through tok.span) (.number n)))
      | _ =>
        if tok.isSymbol "*" then
          advance
          let each ← parseSplatSteps fuel true
          parseSteps fuel (splat e tok.span each)
        else failHere .missingAttributeName
    else if mark.isSymbol "[" then
      enter
      advance
      if ← sees "*" then
        advance
        leave
        let close ← current
        expect "]" .splatClosing
        let each ← parseSplatSteps fuel false
        parseSteps fuel (splat e close.span each)
      else
        let key ← parseExpr fuel
        leave
        let close ← current
        expect "]" .indexClosing
        match key.literal? with
        | some v => parseSteps fuel (e.follow (.index (mark.span.through close.span) v))
        | none => parseSteps fuel (.index (e.span.through close.span) e key)
    else pure e

/-- The steps applied to each element of a splat: attributes, and unless `attrsOnly` is set
static indices. An index that is not static is left to the caller. -/
def parseSplatSteps : Nat → Bool → Parse (List Step)
  | 0, _ => failHere .tooDeep
  | fuel + 1, attrsOnly => do
    let mark ← current
    if mark.isSymbol "." then
      let ahead ← peek
      if ahead.kind = .ident then
        advance
        let name ← current
        advance
        let rest ← parseSplatSteps fuel attrsOnly
        pure (.attr (mark.span.through ahead.span) name.text :: rest)
      else pure []
    else if mark.isSymbol "[" && !attrsOnly then
      let saved ← get
      enter
      advance
      let key ← parseExpr fuel
      leave
      let close ← current
      match key.literal? with
      | some v =>
        if close.isSymbol "]" then
          advance
          let rest ← parseSplatSteps fuel attrsOnly
          pure (.index (mark.span.through close.span) v :: rest)
        else
          set saved
          pure []
      | none =>
        set saved
        pure []
    else pure []

def parsePrimary : Nat → Parse Expr
  | 0 => failHere .tooDeep
  | fuel + 1 => do
    let tok ← current
    match tok.kind with
    | .number =>
      match Number.read tok.text with
      | .ok n =>
        advance
        pure (.literal tok.span (.number n))
      | .error _ => failHere .invalidNumber
    | .string =>
      let parts ← parseTemplate fuel tok.span tok.text.toList tok.span.start
      advance
      pure (.template (withQuotes tok.span) parts)
    | .ident => parseNamed fuel tok
    | .symbol =>
      if tok.text = "(" then
        enter
        advance
        let e ← parseExpr fuel
        leave
        let close ← current
        expect ")" .parenthesisClosing
        pure (.parens (tok.span.through close.span) e)
      else if tok.text = "[" then parseTuple fuel tok.span
      else if tok.text = "\x7b" then parseObject fuel tok.span
      else failHere .missingExpression
    | _ => failHere .missingExpression

/-- A constant, a function call or a name, which starts with the current word. -/
def parseNamed : Nat → Token → Parse Expr
  | 0, _ => failHere .tooDeep
  | fuel + 1, tok => do
    advance
    match wordValue? tok.text with
    | some v => pure (.literal tok.span v)
    | none =>
      let name ← qualified fuel tok.text
      if ← sees "(" then
        enter
        advance
        let (args, expand) ← parseArgs fuel
        leave
        let close ← current
        advance
        pure (.call (tok.span.through close.span) name args expand)
      else if name ≠ tok.text then fail tok.span .missingCall
      else pure (.traversal tok.span name [])

/-- Arguments up to the closing parenthesis, and whether the last one is expanded. -/
def parseArgs : Nat → Parse (List Expr × Bool)
  | 0 => failHere .tooDeep
  | fuel + 1 => do
    if ← sees ")" then pure ([], false)
    else
      let arg ← parseExpr fuel
      let tok ← current
      if tok.isSymbol "..." then
        advance
        if ← sees "," then advance
        if ← sees ")" then pure ([arg], true) else failHere .expansionNotLast
      else
        if tok.isSymbol "," then advance
        else if !tok.isSymbol ")" then failHere .argumentSeparator
        let (args, expand) ← parseArgs fuel
        pure (arg :: args, expand)

/-- A tuple or a tuple for expression, at its opening bracket. -/
def parseTuple : Nat → Span → Parse Expr
  | 0, _ => failHere .tooDeep
  | fuel + 1, start => do
    enter
    advance
    if ← seesWord "for" then parseFor fuel start false
    else
      let items ← parseItems fuel
      leave
      let close ← current
      advance
      pure (.tuple (start.through close.span) items)

/-- Items up to the closing bracket. -/
def parseItems : Nat → Parse (List Expr)
  | 0 => failHere .tooDeep
  | fuel + 1 => do
    if ← sees "]" then pure []
    else
      let item ← parseExpr fuel
      let tok ← current
      if tok.isSymbol "," then advance
      else if !tok.isSymbol "]" then failHere .tupleSeparator
      let items ← parseItems fuel
      pure (item :: items)

/-- An object or an object for expression, at its opening brace. Newlines end the items of an
object, whatever brackets it stands in. -/
def parseObject : Nat → Span → Parse Expr
  | 0, _ => failHere .tooDeep
  | fuel + 1, start => do
    let saved := (← get).nesting
    modify fun s => { s with nesting := 0 }
    advance
    skipNewlines
    let comprehension ← do
      if ← seesWord "for" then pure ((← peek).kind == .ident) else pure false
    if comprehension then
      modify fun s => { s with nesting := saved + 1 }
      parseFor fuel start true
    else
      let items ← parseEntries fuel
      modify fun s => { s with nesting := saved }
      let close ← current
      advance
      pure (.object (start.through close.span) items)

/-- Entries up to the closing brace. -/
def parseEntries : Nat → Parse (List (ObjectKey × Expr))
  | 0 => failHere .tooDeep
  | fuel + 1 => do
    skipNewlines
    if ← sees "\x7d" then pure []
    else
      let key ← parseKey fuel
      let tok ← current
      if tok.isSymbol "=" || tok.isSymbol ":" then
        advance
        let value ← parseExpr fuel
        let tok ← current
        if tok.isSymbol "," then advance
        else if tok.kind != .newline && !tok.isSymbol "\x7d" then failHere .objectSeparator
        let entries ← parseEntries fuel
        pure ((key, value) :: entries)
      else failHere .objectEquals

/-- A bare name right before `=` or `:`, or any expression. -/
def parseKey : Nat → Parse ObjectKey
  | 0 => failHere .tooDeep
  | fuel + 1 => do
    let tok ← current
    let bare ← do
      if tok.kind = .ident then
        let ahead ← peek
        pure (ahead.isSymbol "=" || ahead.isSymbol ":")
      else pure false
    if bare then
      advance
      pure (.name tok.span tok.text)
    else
      let e ← parseExpr fuel
      pure (.expr e)

/-- The rest of a for expression, whose opening bracket has been passed. -/
def parseFor : Nat → Span → Bool → Parse Expr
  | 0, _, _ => failHere .tooDeep
  | fuel + 1, start, object => do
    advance
    let first ← expectName .missingForName
    let second ← do
      if ← sees "," then
        advance
        let name ← expectName .missingForName
        pure (some name)
      else pure none
    let keyVar := second.map fun _ => first
    let valueVar := second.getD first
    if !(← seesWord "in") then failHere .missingIn
    advance
    let collection ← parseExpr fuel
    expect ":" .forExpression
    let key ← do
      if object then
        let key ← parseExpr fuel
        expect "=>" .forExpression
        pure (some key)
      else pure none
    let value ← parseExpr fuel
    let group ← do
      if object then sees "..." else pure false
    if group then advance
    let cond ← do
      if ← seesWord "if" then
        advance
        let cond ← parseExpr fuel
        pure (some cond)
      else pure none
    leave
    let close ← current
    expect (if object then "\x7d" else "]") .forClosing
    pure (.forEach (start.through close.span) keyVar valueVar collection key value cond group)

/-- The parts of a template whose token covers `span`, from the given offset on. -/
def parseTemplate : Nat → Span → List Char → Nat → Parse (List TemplatePart)
  | 0, _, _, _ => failHere .tooDeep
  | fuel + 1, span, cs, offset => do
    let chunk ← (readChunk span cs offset : Except SyntaxError Chunk)
    let head := if chunk.text.isEmpty then [] else [TemplatePart.text (String.ofList chunk.text)]
    match chunk.rest with
    | none => pure head
    | some (rest, offset) =>
      let saved ← get
      let place := span.source.position offset
      set (← (start span.source ⟨rest, offset, place.1, place.2⟩ 1 : Except SyntaxError State))
      let e ← parseExpr fuel
      if !(← sees "\x7d") then failHere .openInterpolation
      let inner ← get
      set saved
      let tail ← parseTemplate fuel span inner.cursor.rest inner.cursor.offset
      pure (head ++ .interp e :: tail)

end

/-- A bound on the depth of calls that no text of this source reaches. -/
def depthBound (source : Source) : Nat :=
  16 * (source.text.length + 2)

/-- The expression that makes up the whole source. -/
def expression (source : Source) : Except SyntaxError Expr := do
  let s ← start source (.ofSource source) 0
  let parse : Parse Expr := do
    skipNewlines
    let e ← parseExpr (depthBound source)
    skipNewlines
    if (← current).kind ≠ .eof then failHere .trailingToken
    pure e
  (parse.run s).map Prod.fst

end StaticConfig.Parser
