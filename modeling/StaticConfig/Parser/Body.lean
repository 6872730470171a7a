import StaticConfig.Parser.Expr

/-!
Parsing files: attributes and blocks, each ended by a newline, by the end of the text, or by the
closing brace of the block they stand in.
-/
namespace StaticConfig.Parser

/-- Passes the end of an attribute or block. -/
def endItem (nested : Bool) : Parse Unit := do
  let tok ← current
  match tok.kind with
  | .newline => advance
  | .eof => pure ()
  | _ => if nested && tok.isSymbol "\x7d" then pure () else failHere .missingItemEnd

/-- The text of a block label written as a template. -/
def labelText? : List TemplatePart → Option String
  | [] => some ""
  | [.text s] => some s
  | _ => none

/-- The labels of a block with their ranges. -/
def parseLabels : Nat → Parse (List (String × Span))
  | 0 => failHere .tooDeep
  | fuel + 1 => do
    let tok ← current
    match tok.kind with
    | .ident =>
      advance
      let rest ← parseLabels fuel
      pure ((tok.text, tok.span) :: rest)
    | .string =>
      let parts ← parseTemplate fuel tok.span tok.text.toList tok.span.start
      match labelText? parts with
      | none => failHere .labelSequence
      | some label =>
        advance
        let rest ← parseLabels fuel
        pure ((label, tok.span) :: rest)
    | _ => pure []

/-- The range of a body: from the opening brace to the current token, or the whole source. -/
def bodySpan (source : Source) (opening : Option Span) (last : Span) : Span :=
  match opening with
  | some span => span.through last
  | none => ⟨source, 1, 1, 0, source.size⟩

mutual

/-- A body up to its closing brace, or to the end of the text if nothing opened it. -/
def parseBody : Nat → Option Span → Parse Body
  | 0, _ => failHere .tooDeep
  | fuel + 1, opening => do
    let (attributes, blocks) ← parseDefinitions fuel opening.isSome []
    let s ← get
    pure ⟨bodySpan s.source opening s.tok.span, attributes, blocks⟩

/-- The attributes, added to those already read, and the blocks of a body. -/
def parseDefinitions : Nat → Bool → Fields Attribute → Parse (Fields Attribute × List Block)
  | 0, _, _ => failHere .tooDeep
  | fuel + 1, nested, attributes => do
    skipNewlines
    let name ← current
    if name.kind = .eof then
      if nested then failHere .openBody else pure (attributes, [])
    else if nested && name.isSymbol "\x7d" then pure (attributes, [])
    else if name.kind ≠ .ident then failHere .missingItem
    else
      advance
      if ← sees "=" then
        advance
        let e ← parseExpr fuel
        endItem nested
        match Fields.get? name.text attributes with
        | some prior => fail name.span (.duplicateAttribute name.text prior.nameSpan)
        | none =>
          let attr : Attribute := ⟨name.span.through e.span, name.span, name.text, e⟩
          parseDefinitions fuel nested (Fields.insert name.text attr attributes)
      else
        let block ← parseBlock fuel nested name
        let (attributes, blocks) ← parseDefinitions fuel nested attributes
        pure (attributes, block :: blocks)

/-- The rest of a block whose type has been passed. -/
def parseBlock : Nat → Bool → Token → Parse Block
  | 0, _, _ => failHere .tooDeep
  | fuel + 1, nested, type => do
    let labels ← parseLabels fuel
    let definition := match labels.getLast? with
      | some last => type.span.through last.2
      | none => type.span
    let opening ← current
    expect "\x7b" .blockOpening
    let body ← parseBody fuel (some opening.span)
    let close ← current
    advance
    endItem nested
    pure ⟨type.span.through close.span, definition, type.text, labels.map Prod.fst,
      labels.map Prod.snd, body⟩

end

/-- The body of a file. -/
def file (source : Source) : Except SyntaxError Body := do
  let s ← start source (.ofSource source) 0
  ((parseBody (depthBound source) none).run s).map Prod.fst

end StaticConfig.Parser
