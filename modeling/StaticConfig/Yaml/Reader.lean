import StaticConfig.Json.Basic
import StaticConfig.Yaml.Token

/-!
YAML documents as trees. An alias stands for the node that was given its name by an anchor.
-/
namespace StaticConfig.Yaml

inductive Node where
  | scalar (tag : Option String) (text : String) (plain : Bool)
  | sequence (tag : Option String) (items : List Node)
  | mapping (tag : Option String) (entries : List (Node × Node))
  /-- The number of the anchor. -/
  | alias (id : Nat)
  deriving Inhabited

/-- A document, with the nodes that anchors name. A text without a document has no root. -/
structure Document where
  root : Option Node
  anchors : List (Nat × Node)
  /-- How many times an alias may be followed. -/
  aliasLimit : Nat
  deriving Inhabited

namespace Document

structure Reading where
  tokens : List Token
  /-- Prefixes that stand for handles of tags. -/
  prefixes : List (String × String)
  /-- Numbers of the names that anchors have given. -/
  names : List (String × Nat)
  anchors : List (Nat × Node)
  /-- Nodes read so far, where begin and end of a collection count on their own. -/
  events : Nat

abbrev Read := StateT Reading Option

namespace Read

def fail {α : Type} : Read α := fun _ => none

def peek : Read Token := fun r => some (r.tokens.headD .streamEnd, r)

def drop : Read Unit := fun r => some ((), { r with tokens := r.tokens.drop 1 })

def event : Read Unit := fun r => some ((), { r with events := r.events + 1 })

/-- Whether the token stands here; it is passed if so. -/
def accept (t : Token) : Read Bool := do
  if (← peek) == t then do
    drop
    pure true
  else pure false

/-- The full tag of a handle and suffix. -/
def fullTag (handle suffix : String) : Read String := fun r =>
  if handle.isEmpty then some (suffix, r)
  else match r.prefixes.lookup handle with
    | some leading => some (leading ++ suffix, r)
    | none => none

/-- The number for an anchor's name. A new name gets the number of names before it; a name given
again gets a new number in the same way. -/
def register (name : String) : Read Nat := fun r =>
  let id := r.names.length
  some (id, { r with names := (name, id) :: r.names.filter fun e => e.1 != name })

/-- Binds the node to the number of its anchor. The first `outer` anchors were bound before the
node began; one bound within it that has the same number began later, and stays. -/
def bindAnchor (outer : Nat) (id : Option Nat) (n : Node) : Read Node := fun r =>
  match id with
  | some id =>
    let within := r.anchors.take (r.anchors.length - outer)
    if (within.lookup id).isSome then some (n, r)
    else some (n, { r with anchors := (id, n) :: r.anchors })
  | none => some (n, r)

def named (name : String) : Read Node := fun r =>
  match r.names.lookup name with
  | some id => some (.alias id, r)
  | none => none

/-- The anchor and tag before a node, in either order. -/
def properties : Read (Option String × Option String) := do
  let anchor? : Read (Option String) := do
    match ← peek with
    | .anchor name => do
      drop
      pure (some name)
    | _ => pure none
  let tag? : Read (Option String) := do
    match ← peek with
    | .tag handle suffix => do
      drop
      pure (some (← fullTag handle suffix))
    | _ => pure none
  match ← peek with
  | .tag _ _ => do
    let tag ← tag?
    let anchor ← anchor?
    pure (anchor, tag)
  | _ => do
    let anchor ← anchor?
    let tag ← tag?
    pure (anchor, tag)

def emptyNode : Read Node := do
  event
  pure (.scalar none "" true)

/-- A node, or an empty one before one of the tokens. -/
def nodeUnless (stops : List Token) (node : Read Node) : Read Node := do
  if stops.contains (← peek) then emptyNode else node

/-- The entries of a sequence, each after its sign. -/
def entries (stops : List Token) (node : Read Node) : Nat → Read (List Node)
  | 0 => fail
  | fuel + 1 => do
    if ← accept .entry then do
      let n ← nodeUnless (.entry :: stops) node
      let ns ← entries stops node fuel
      pure (n :: ns)
    else pure []

/-- The value after a key, or an empty one. -/
def valueAfter (stops : List Token) (node : Read Node) : Read Node := do
  if ← accept .value then nodeUnless stops node else emptyNode

def blockPairs (node : Read Node) : Nat → Read (List (Node × Node))
  | 0 => fail
  | fuel + 1 => do
    if ← accept .key then do
      let stops := [Token.key, .value, .blockEnd]
      let k ← nodeUnless stops node
      let v ← valueAfter stops node
      let rest ← blockPairs node fuel
      pure ((k, v) :: rest)
    else pure []

/-- A single pair within a bracketed sequence, after its sign. -/
def flowPair (node : Read Node) : Read Node := do
  let stops := [Token.comma, .flowSequenceEnd]
  event
  let k ←
    if (Token.value :: stops).contains (← peek) then do
      drop
      emptyNode
    else node
  let v ← valueAfter stops node
  event
  pure (.mapping none [(k, v)])

def flowItems (node : Read Node) : Nat → Bool → Read (List Node)
  | 0, _ => fail
  | fuel + 1, isFirst => do
    if ← accept .flowSequenceEnd then pure []
    else do
      if !isFirst then
        if !(← accept .comma) then fail
      if ← accept .flowSequenceEnd then pure []
      else do
        let n ← if ← accept .key then flowPair node else node
        let ns ← flowItems node fuel false
        pure (n :: ns)

def flowPairs (node : Read Node) : Nat → Bool → Read (List (Node × Node))
  | 0, _ => fail
  | fuel + 1, isFirst => do
    if ← accept .flowMappingEnd then pure []
    else do
      if !isFirst then
        if !(← accept .comma) then fail
      if ← accept .flowMappingEnd then pure []
      else do
        let stops := [Token.comma, .flowMappingEnd]
        let pair ←
          if ← accept .key then do
            let k ← nodeUnless (.value :: stops) node
            let v ← valueAfter stops node
            pure (k, v)
          else do
            let k ← node
            let v ← emptyNode
            pure (k, v)
        let rest ← flowPairs node fuel false
        pure (pair :: rest)

def closing (t : Token) : Read Unit := do
  if !(← accept t) then fail

/-- A node within a block, or within brackets. The entries of a sequence that is the value of a
key may stand below the key without indentation. -/
def node : Nat → Bool → Bool → Read Node
  | 0, _, _ => fail
  | fuel + 1, inBlock, underKey => do
    match ← peek with
    | .alias name => do
      drop
      event
      named name
    | _ => do
      let (anchor, tag) ← properties
      let id ← match anchor with
        | some name => do pure (some (← register name))
        | none => pure none
      event
      let count := (← get).tokens.length + 1
      let outer := (← get).anchors.length
      match ← peek with
      | .scalar text plain => do
        drop
        bindAnchor outer id (.scalar tag text plain)
      | .flowSequenceStart => do
        drop
        let items ← flowItems (node fuel false false) count true
        event
        bindAnchor outer id (.sequence tag items)
      | .flowMappingStart => do
        drop
        let pairs ← flowPairs (node fuel false false) count true
        event
        bindAnchor outer id (.mapping tag pairs)
      | .sequenceStart => do
        if !inBlock then fail
        drop
        let items ← entries [.blockEnd] (node fuel true false) count
        closing .blockEnd
        event
        bindAnchor outer id (.sequence tag items)
      | .mappingStart => do
        if !inBlock then fail
        drop
        let pairs ← blockPairs (node fuel true true) count
        closing .blockEnd
        event
        bindAnchor outer id (.mapping tag pairs)
      | t => do
        if t == .entry && underKey then do
          let items ← entries [.key, .value, .blockEnd] (node fuel true false) count
          event
          bindAnchor outer id (.sequence tag items)
        else if anchor.isSome || tag.isSome then bindAnchor outer id (.scalar tag "" true)
        else fail

/-- Directives before a document. No version and no handle may be given twice. -/
def directives : Nat → Bool → List String → Read Bool
  | 0, _, _ => fail
  | fuel + 1, versioned, handles => do
    match ← peek with
    | .version => do
      if versioned then fail
      drop
      directives fuel true handles
    | .tagPrefix handle leading => do
      if handles.contains handle then fail
      drop
      modify fun r => { r with prefixes := (handle, leading) :: r.prefixes }
      directives fuel versioned (handle :: handles)
    | _ => pure (versioned || !handles.isEmpty)

/-- What may stand after a document: signs of its end, and nothing else. -/
def finish : Nat → Read Unit
  | 0 => fail
  | fuel + 1 => do
    if ← accept .documentEnd then finish fuel
    else if (← peek) == .streamEnd then pure ()
    else fail

/-- The single document of a text, if there is one. -/
def document : Read (Option Node) := do
  if (← peek) == .streamEnd then pure none
  else do
    let count := (← get).tokens.length + 1
    let directed ← directives count false []
    let explicit ← accept .documentStart
    if directed && !explicit then fail
    let content := node count true false
    let root ←
      if explicit then nodeUnless [.version, .documentStart, .documentEnd, .streamEnd] content
      else content
    finish count
    pure (some root)

end Read

def defaultPrefixes : List (String × String) := [("!", "!"), ("!!", "tag:yaml.org,2002:")]

/-- The document of a text that holds at most one. -/
def read? (s : String) : Option Document := do
  let tokens ← tokens? s
  let (root, r) ← Read.document ⟨tokens, defaultPrefixes, [], [], 0⟩
  pure ⟨root, r.anchors, 100 * r.events⟩

end Document

end StaticConfig.Yaml

/-!
What YAML documents mean. A plain scalar is a null, a truth value, a number or a text, as its
text tells; in quotes it is always a text. A key is the text of its scalar.
-/
namespace StaticConfig.Yaml

def isNull (s : String) : Bool := ["null", "Null", "NULL", "~"].contains s

def bool? (s : String) : Option Bool :=
  if ["true", "True", "TRUE"].contains s then some true
  else if ["false", "False", "FALSE"].contains s then some false
  else none

/-- Digits after a leading zero do not make a number. -/
def isPaddedDigits (cs : List Char) : Bool :=
  let ds := match cs with
    | '-' :: ds => ds
    | '+' :: ds => ds
    | ds => ds
  match ds with
  | '0' :: d :: ds => (d :: ds).all Char.isDigit
  | _ => false

def isSigned (cs : List Char) : Bool := cs.head?.any fun c => c == '+' || c == '-'

def dropPlus : List Char → List Char
  | '+' :: cs => cs
  | cs => cs

def bases : List (Char × Nat) := [('x', 16), ('o', 8), ('b', 2)]

/-- The number with the digits, of which there has to be one. -/
def digits? (base : Nat) (cs : List Char) : Option Nat :=
  if cs.isEmpty then none else Text.readNat base 0 cs

/-- The number after a sign for its base. -/
def basedNat? : List Char → Option Nat
  | '0' :: b :: cs => (bases.lookup b).bind fun base => digits? base cs
  | _ => none

def nat? (cs : List Char) : Option Nat :=
  let bare := dropPlus cs
  (basedNat? bare).or (if isSigned bare || isPaddedDigits cs then none else digits? 10 bare)

/-- A whole number written in decimal or after a sign for its base. -/
def whole? (s : String) : Option Int :=
  let cs := s.toList
  match nat? cs with
  | some n => some (Int.ofNat n)
  | none =>
    match cs with
    | '-' :: ds =>
      ((basedNat? ds).or (if isPaddedDigits cs then none else digits? 10 ds)).map fun n =>
        -Int.ofNat n
    | _ => none

def float? (s : String) : Option Float :=
  let cs := s.toList
  let bare := dropPlus cs
  let word := String.ofList bare
  if cs.head? == some '+' && isSigned bare then none
  else if [".inf", ".Inf", ".INF"].contains word then some (Double.infinity false)
  else if ["-.inf", "-.Inf", "-.INF"].contains s then some (Double.infinity true)
  else if [".nan", ".NaN", ".NAN"].contains s then some Double.nan
  else match Double.read? word with
    | some f => if Double.isFinite f then some f else none
    | none => none

/-- Beyond this a whole number is read as a double. -/
def wideLimit : Nat := Nat.pow 2 128

/-- A whole number as JSON has it. Numbers that need more than 64 bits have no JSON form. -/
def ofWhole (i : Int) : Option Json :=
  if i < 0 then
    if Text.fitsWord i then some (.number (.int (Int64.ofInt i))) else none
  else if i < Int.pow 2 64 then some (.number (Number.ofExact i (Double.ofInt i)))
  else none

/-- The whole number that the text is written as, unless it is too wide to be one. -/
def narrow? (s : String) : Option Int :=
  (whole? s).bind fun i =>
    if -(Int.pow 2 127) ≤ i ∧ i < Int.ofNat wideLimit then some i else none

/-- A plain scalar without a tag. -/
def ofPlain (s : String) : Option Json :=
  if s.isEmpty || isNull s then some .null
  else match bool? s with
    | some b => some (.bool b)
    | none =>
      match narrow? s with
      | some i => ofWhole i
      | none =>
        match if isPaddedDigits s.toList then none else float? s with
        | some f => some (Json.ofFloat f)
        | none => some (.string s)

def standardTag (name : String) : String := "tag:yaml.org,2002:" ++ name

/-- Tags that begin with an exclamation mark are not standard ones. -/
def isLocalTag (tag : Option String) : Bool := tag.any fun t => t.toList.head? == some '!'

def ofScalar (tag : Option String) (text : String) (plain : Bool) : Option Json :=
  match tag with
  | none => if plain then ofPlain text else some (.string text)
  | some tag =>
    if tag = standardTag "bool" then (bool? text).map .bool
    else if tag = standardTag "int" then (narrow? text).bind ofWhole
    else if tag = standardTag "float" then (float? text).map Json.ofFloat
    else if tag = standardTag "null" then (if isNull text then some .null else none)
    else some (.string text)

/-- A step of reading that may follow aliases; the state counts them. -/
abbrev Resolve := StateT Nat Option

namespace Document

/-- The node itself, or the one that an alias stands for. -/
def target (d : Document) (n : Node) : Resolve Node :=
  match n with
  | .alias id => fun followed =>
    if followed < d.aliasLimit then (d.anchors.lookup id).map fun n => (n, followed + 1) else none
  | n => pure n

/-- The text of a key. -/
def keyText (d : Document) (n : Node) : Resolve String := do
  match ← d.target n with
  | .scalar _ text _ => pure text
  | _ => fun _ => none

/-- The meaning of a node whose collections are nested at most so deep. -/
def json (d : Document) : Nat → Node → Resolve Json
  | depth, n => do
    match ← d.target n, depth with
    | .scalar tag text plain, _ =>
      if isLocalTag tag then fun _ => none
      else fun followed => (ofScalar tag text plain).map fun j => (j, followed)
    | .sequence tag items, depth + 1 => do
      if isLocalTag tag then fun _ => none
      else do
        let js ← items.mapM (json d depth)
        pure (.array js)
    | .mapping tag entries, depth + 1 => do
      if isLocalTag tag then fun _ => none
      else do
        let members ← entries.mapM fun e => do
          let k ← d.keyText e.1
          let j ← json d depth e.2
          pure (k, j)
        pure (.object members)
    | _, _ => fun _ => none

/-- How deep collections may be nested. -/
def depthLimit : Nat := 128

def toJson? (d : Document) : Option Json :=
  match d.root with
  | none => some .null
  | some root => ((d.json depthLimit root).run 0).map Prod.fst

end Document

/-- The meaning of a text that holds at most one document. -/
def readJson? (s : String) : Option Json :=
  (Document.read? s).bind Document.toJson?

end StaticConfig.Yaml
