import StaticConfig.Eval.Operator
import StaticConfig.Builtin.Basic

/-!
Evaluation of expressions. An expression that fails does not stop the evaluation: it has an
unknown value, and a diagnostic tells why. Of a conditional only the branch that is taken may
report diagnostics. The functions that can be called are a parameter.
-/
namespace StaticConfig

/-- Values of the names that an expression sees. The first binding of a name counts. -/
abbrev Env := List (String × Value)

structure Setting where
  library : Library
  /-- Impure functions have unknown results. -/
  pureOnly : Bool

/-- A computation that may report diagnostics and may fail. -/
abbrev Eval := ExceptT EvalError Report

namespace Eval

def fail {α : Type} (span : Span) (fault : EvalFault) : Eval α :=
  throw ⟨span, fault⟩

/-- A failure becomes an unknown value and a diagnostic. -/
def settle (e : Eval Value) : Report Value :=
  let r : Report (Except EvalError Value) := e
  match r.result with
  | .ok v => ⟨v, r.diags⟩
  | .error err => ⟨.dynamic, r.diags ++ [err.diagnostic]⟩

def ofExcept {α : Type} (r : Except EvalError α) : Eval α := liftM r

def tell (ds : Diagnostics) : Eval Unit := liftM (Report.tell ds)

/-- Text of an interpolated value, or none where it is unknown. -/
def interpolated (v : Value) (place span : Span) : Except EvalError (Option String) :=
  if v.isNull then .error ⟨place, .nullInterpolation⟩
  else if !v.isKnown then .ok none
  else match v.convert .string with
    | .ok s => .ok (some (s.string?.getD ""))
    | .error e => .error ⟨span, .wrongInterpolation e⟩

/-- The text that a key stands for, or none where it is unknown. -/
def keyText (v : Value) (span : Span) (null : EvalFault) (wrong : ConversionError → EvalFault) :
    Except EvalError (Option String) :=
  if v.isNull then .error ⟨span, null⟩
  else if !v.isKnown then .ok none
  else match v.convert .string with
    | .ok s => .ok (some (s.string?.getD ""))
    | .error e => .error ⟨span, wrong e⟩

/-- The arguments of a call whose last argument is expanded, or none where it is unknown. -/
def expandLast (span : Span) : List Value → Except EvalError (Option (List Value))
  | [] => .ok (some [])
  | [last] =>
    match last.unmarked with
    | .list _ items => .ok (some (items.map (Value.markIf last.isMarked)))
    | .set _ items => .ok (some (items.map (Value.markIf last.isMarked)))
    | .tuple items => .ok (some (items.map (Value.markIf last.isMarked)))
    | .unknown _ => .ok none
    | .null _ => .error ⟨span, .nullExpansion⟩
    | _ => .error ⟨span, .wrongExpansion⟩
  | v :: vs => do
    match ← expandLast span vs with
    | some rest => .ok (some (v :: rest))
    | none => .ok none

/-- The range of the last argument. -/
def lastSpan (span : Span) (args : List Expr) : Span :=
  (args.getLast?.map Expr.span).getD span

/-- The call of a named function. -/
def callNamed (s : Setting) (name : String) (args : List Value) (span : Span) : Evaluated :=
  match s.library span name with
  | none => .error ⟨span, .unknownFunction name⟩
  | some f =>
    match f.call s.pureOnly args with
    | .ok v => .ok v
    | .error e => .error ⟨span, .failedCall name e⟩

/-- A condition or filter that has to be true or false, or none where it is unknown. -/
def truth (v : Value) : Except ConversionError (Option Bool) :=
  (v.convert .bool).map Value.bool?

/-- The result of a conditional: the condition's marks, and the branch taken, both converted to
the type they have in common. -/
def chooseBranch (cond : Value) (condSpan span : Span) (yes no : Report Value) : Eval Value := do
  let bare := cond.bare
  if bare.isNull then fail condSpan .nullCondition
  match truth bare with
  | .error _ => fail condSpan .wrongCondition
  | .ok decision =>
    match Ty.unify [yes.result.ty, no.result.ty] with
    | none =>
      tell (yes.diags ++ no.diags)
      fail span (.mixedBranches yes.result.ty no.result.ty)
    | some ty =>
      let taken ← match decision with
        | none => do
          tell (yes.diags ++ no.diags)
          pure (.unknown ty)
        | some true => do
          tell yes.diags
          pure ((yes.result.convert? ty).getD yes.result)
        | some false => do
          tell no.diags
          pure ((no.result.convert? ty).getD no.result)
      pure (taken.markIf cond.hasMark)

/-- What one round of a for expression gives. -/
inductive Item where
  | skip
  | unknown
  | keep (key : Option String) (value : Value)

/-- Runs the rounds of a for expression in order, up to an unknown item. Gives the items kept,
if all are known, and whether a condition or key was marked. -/
def gather (unique : Bool) (keySpan : Span) (round : Value × Value → Eval (Item × Bool)) :
    List (Option String × Value) → Bool → List (Value × Value) →
      Eval (Option (List (Option String × Value)) × Bool)
  | kept, marked, [] => pure (some kept, marked)
  | kept, marked, e :: es => do
    let (item, m) ← round e
    let marked := marked || m
    match item with
    | .skip => gather unique keySpan round kept marked es
    | .unknown => pure (none, marked)
    | .keep key value =>
      match key with
      | some k =>
        if unique && kept.any fun other => other.1 == some k then
          fail keySpan (.duplicateItemKey k)
        else gather unique keySpan round (kept ++ [(key, value)]) marked es
      | none => gather unique keySpan round (kept ++ [(key, value)]) marked es

/-- Appends the value to the group of the key. -/
def intoGroup (key : String) (value : Value) (groups : Fields (List Value)) :
    Fields (List Value) :=
  groups.insert key ((groups.get? key).getD [] ++ [value])

/-- The collection made of the items kept: a tuple without keys, an object with them. -/
def assemble (keyed group : Bool) (kept : List (Option String × Value)) : Value :=
  if !keyed then .tuple (kept.map Prod.snd)
  else
    let named := kept.map fun e => (e.1.getD "", e.2)
    if group then
      let groups := named.foldl (fun acc e => intoGroup e.1 e.2 acc) []
      .object (groups.mapValues Value.tuple)
    else .object (Fields.ofList named)

/-- The bindings of one round. A value variable hides a key variable of the same name. -/
def bindItem (keyVar : Option String) (valueVar : String) (e : Value × Value) (env : Env) : Env :=
  (valueVar, e.2) :: (keyVar.toList.map fun k => (k, e.1)) ++ env

mutual

/-- The value of an expression, with the diagnostics of its parts. -/
def eval (s : Setting) (env : Env) (e : Expr) : Report Value :=
  settle (match e with
    | .literal _ v => pure v
    | .parens _ inner => liftM (eval s env inner)
    | .template span parts =>
      match parts with
      -- A lone interpolation has the value itself.
      | [.interp inner] => liftM (eval s env inner)
      | parts => do
        let (text, marked) ← evalParts s env span parts
        let v := match text with
          | some text => Value.string text
          | none => Value.unknown .string
        pure (v.markIf marked)
    | .traversal span root steps =>
      match env.lookup root with
      | some v => ofExcept (v.steps steps)
      | none => fail span (.unknownVariable root)
    | .relative _ source steps => do
      let v ← eval s env source
      ofExcept (v.steps steps)
    | .index span collection key => do
      let c ← eval s env collection
      let k ← eval s env key
      ofExcept (c.element k span)
    | .splat _ source each => do
      let v ← eval s env source
      ofExcept (v.splat each)
    | .tuple _ items => do
      let vs ← evalAll s env items
      pure (.tuple vs)
    | .object _ items => do
      let (attrs, known, marked) ← evalItems s env [] items
      pure ((if known then Value.object attrs else .dynamic).markIf marked)
    | .call span name args expand => do
      let vs ← evalAll s env args
      if expand then
        match ← ofExcept (expandLast (lastSpan span args) vs) with
        | some vs => ofExcept (callNamed s name vs span)
        | none => pure (Value.dynamic.markIf (vs.getLast?.any Value.isMarked))
      else ofExcept (callNamed s name vs span)
    | .unary span op operand => do
      let v ← eval s env operand
      let out ← ofExcept (Operator.unary op v.bare span)
      pure (out.markIf v.hasMark)
    | .binary span op lhs rhs => do
      let l ← eval s env lhs
      let r ← eval s env rhs
      let out ← ofExcept (Operator.binary op l.bare r.bare lhs.span rhs.span span)
      pure (out.markIf (l.hasMark || r.hasMark))
    | .conditional span cond yes no => do
      let c ← eval s env cond
      chooseBranch c cond.span span (eval s env yes) (eval s env no)
    | .forEach span keyVar valueVar collection key value cond group => do
      let c ← eval s env collection
      match c.unmarked with
      | .null _ => fail collection.span .nullIteration
      | .unknown _ => pure (Value.dynamic.markIf c.isMarked)
      | bare =>
        match bare.iterated? with
        | none => fail collection.span (.notIterable bare.ty)
        | some pairs =>
          let round (pair : Value × Value) : Eval (Item × Bool) :=
            let env := bindItem keyVar valueVar pair env
            do
              let (decision, m) ← evalFilter s env cond
              match decision with
              | some true => do
                let (text, n) ← evalKey s env key
                match text with
                | none => pure (.unknown, m || n)
                | some text => do
                  let v ← eval s env value
                  pure (.keep text v, m || n)
              | some false => pure (.skip, m)
              | none => pure (.unknown, m)
          let keySpan := (key.map Expr.span).getD span
          let (kept, marked) ← gather (!group) keySpan round [] c.isMarked pairs
          match kept with
          | none => pure (Value.dynamic.markIf marked)
          | some kept => pure ((assemble key.isSome group kept).markIf marked))

/-- The values of several expressions, in order. -/
def evalAll (s : Setting) (env : Env) : List Expr → Report (List Value)
  | [] => pure []
  | e :: es => do
    let v ← eval s env e
    let vs ← evalAll s env es
    pure (v :: vs)

/-- The text of a template, if it is known, and whether a part of it is marked. -/
def evalParts (s : Setting) (env : Env) (span : Span) :
    List TemplatePart → Eval (Option String × Bool)
  | [] => pure (some "", false)
  | .text text :: parts => do
    let (rest, marked) ← evalParts s env span parts
    pure (rest.map (text ++ ·), marked)
  | .interp e :: parts => do
    let v ← eval s env e
    let text ← ofExcept (interpolated v.bare e.span span)
    let (rest, marked) ← evalParts s env span parts
    pure (match text, rest with
      | some text, some rest => some (text ++ rest)
      | _, _ => none, v.hasMark || marked)

/-- The attributes of an object added to `attrs`, whether all keys are known, and whether a key
is marked. The value of an unknown key is not evaluated. -/
def evalItems (s : Setting) (env : Env) (attrs : Fields Value) :
    List (ObjectKey × Expr) → Eval (Fields Value × Bool × Bool)
  | [] => pure (attrs, true, false)
  | (.name _ name, value) :: items => do
    let v ← eval s env value
    evalItems s env (attrs.insert name v) items
  | (.expr key, value) :: items => do
    let k ← eval s env key
    match ← ofExcept (keyText k.bare key.span .nullObjectKey .wrongObjectKey) with
    | none => do
      let (attrs, _, marked) ← evalItems s env attrs items
      pure (attrs, false, k.hasMark || marked)
    | some name => do
      let v ← eval s env value
      let (attrs, known, marked) ← evalItems s env (attrs.insert name v) items
      pure (attrs, known, k.hasMark || marked)

/-- The decision of a filter, if it is known, and whether the filter is marked. Without a filter
every item stays. -/
def evalFilter (s : Setting) (env : Env) : Option Expr → Eval (Option Bool × Bool)
  | none => pure (some true, false)
  | some cond => do
    let c ← eval s env cond
    let bare := c.bare
    if bare.isNull then fail cond.span .nullFilter
    match truth bare with
    | .ok decision => pure (decision, c.hasMark)
    | .error e => fail cond.span (.wrongFilter e)

/-- The key of an item, none when it is unknown, and whether the key is marked. -/
def evalKey (s : Setting) (env : Env) : Option Expr → Eval (Option (Option String) × Bool)
  | none => pure (some none, false)
  | some key => do
    let k ← eval s env key
    let text ← ofExcept (keyText k.bare key.span .nullItemKey .wrongItemKey)
    pure (text.map some, k.hasMark)

end

end Eval

end StaticConfig
