import StaticConfig.Proofs.Evaluation.Called

/-!
Expressions without the ranges that they were written in. The ranges show only in what is reported:
without them an expression has the same value, and the same diagnostics but for the places that
these point at.
-/
namespace StaticConfig

/-- The step without its range. -/
def Step.unplaced : Step → Step
  | .attr _ name => .attr default name
  | .index _ key => .index default key

namespace Expr

mutual

/-- The expression without the ranges of its parts. -/
def unplaced : Expr → Expr
  | .literal _ value => .literal default value
  | .template _ parts => .template default (unplacedTemplate parts)
  | .traversal _ root steps => .traversal default root (steps.map Step.unplaced)
  | .relative _ source steps => .relative default (unplaced source) (steps.map Step.unplaced)
  | .index _ collection key => .index default (unplaced collection) (unplaced key)
  | .splat _ source each => .splat default (unplaced source) (each.map Step.unplaced)
  | .tuple _ items => .tuple default (unplacedAll items)
  | .object _ items => .object default (unplacedItems items)
  | .call _ name args expand => .call default name (unplacedAll args) expand
  | .unary _ op operand => .unary default op (unplaced operand)
  | .binary _ op lhs rhs => .binary default op (unplaced lhs) (unplaced rhs)
  | .conditional _ cond yes no =>
    .conditional default (unplaced cond) (unplaced yes) (unplaced no)
  | .forEach _ keyVar valueVar collection key value cond group =>
    .forEach default keyVar valueVar (unplaced collection) (unplacedOption key) (unplaced value)
      (unplacedOption cond) group
  | .parens _ inner => .parens default (unplaced inner)

def unplacedAll : List Expr → List Expr
  | [] => []
  | e :: es => unplaced e :: unplacedAll es

def unplacedOption : Option Expr → Option Expr
  | none => none
  | some e => some (unplaced e)

def unplacedTemplate : List TemplatePart → List TemplatePart
  | [] => []
  | .text s :: parts => .text s :: unplacedTemplate parts
  | .interp e :: parts => .interp (unplaced e) :: unplacedTemplate parts

def unplacedItems : List (ObjectKey × Expr) → List (ObjectKey × Expr)
  | [] => []
  | (.name _ s, e) :: items => (.name default s, unplaced e) :: unplacedItems items
  | (.expr k, e) :: items => (.expr (unplaced k), unplaced e) :: unplacedItems items

end

theorem span_unplaced (e : Expr) : e.unplaced.span = default := by
  cases e <;> rw [unplaced] <;> rfl

theorem unplacedAll_eq (es : List Expr) : unplacedAll es = es.map unplaced := by
  induction es with
  | nil => rfl
  | cons e es ih => rw [unplacedAll, ih, List.map_cons]

end Expr

/-! Reports and failures without the places that they point at. -/

namespace Diagnostic

def unplaced (d : Diagnostic) : Diagnostic :=
  { d with subject := d.subject.map fun _ => default }

end Diagnostic

def EvalError.unplaced (e : EvalError) : EvalError := ⟨default, e.fault⟩

namespace Report

variable {α β : Type}

def unplaced (r : Report α) : Report α :=
  ⟨r.result, r.diags.map Diagnostic.unplaced⟩

theorem unplaced_pure (a : α) : unplaced (Pure.pure a) = Pure.pure a := rfl

theorem unplaced_bind (r : Report α) (f : α → Report β) :
    unplaced (r >>= f) = unplaced r >>= fun a => unplaced (f a) :=
  congrArg (mk _) (List.map_append ..)

end Report

namespace Eval

section Morphism

variable {α β : Type}

/-- The computation without the places in what it reports and in how it fails. -/
def unplaced (m : Eval α) : Eval α :=
  let r : Report (Except EvalError α) := m
  (⟨r.result.mapError EvalError.unplaced, r.diags.map Diagnostic.unplaced⟩ :
    Report (Except EvalError α))

theorem unplaced_pure (a : α) : unplaced (pure a) = pure a := rfl

theorem unplaced_fail (span : Span) (fault : EvalFault) :
    unplaced (fail span fault : Eval α) = fail default fault := rfl

theorem unplaced_lift (r : Report α) : unplaced (liftM r) = liftM r.unplaced := by
  refine congrArg (Report.mk _) ?_
  exact (List.map_append ..).trans (congrArg _ List.map_nil)

theorem unplaced_ofExcept (r : Except EvalError α) :
    unplaced (ofExcept r) = ofExcept (r.mapError EvalError.unplaced) := by
  cases r <;> rfl

theorem unplaced_bind (m : Eval α) (f : α → Eval β) :
    unplaced (m >>= f) = unplaced m >>= fun a => unplaced (f a) := by
  obtain ⟨result, diags⟩ := m
  cases result with
  | error e => exact congrArg (Report.mk _) (List.map_append ..)
  | ok a => exact congrArg (Report.mk _) (List.map_append ..)

theorem settle_unplaced (m : Eval Value) : settle (unplaced m) = (settle m).unplaced := by
  obtain ⟨result, diags⟩ := m
  cases result with
  | error e =>
    refine congrArg (Report.mk _) ?_
    change _ = (diags ++ [e.diagnostic]).map Diagnostic.unplaced
    rw [List.map_append]
    rfl
  | ok a => rfl

end Morphism

end Eval

/-! Parts of values. -/

namespace Value

open EvalError (unplaced)

theorem mapError_map {α β : Type} (r : Except EvalError α) (f : α → β) :
    (r.map f).mapError unplaced = (r.mapError unplaced).map f := by
  cases r <;> rfl

theorem mapError_bind {α β : Type} (r : Except EvalError α) (f : α → Except EvalError β) :
    (r >>= f).mapError unplaced = r.mapError unplaced >>= fun a => (f a).mapError unplaced := by
  cases r <;> rfl

theorem bareAttr_unplaced (v : Value) (name : String) (span : Span) :
    v.bareAttr name default = (v.bareAttr name span).mapError unplaced := by
  cases v with
  | unknown t => cases t <;> rfl
  | object attrs =>
    rw [bareAttr, bareAttr]
    cases Fields.get? name attrs <;> rfl
  | map e entries =>
    rw [bareAttr, bareAttr]
    cases Fields.get? name entries <;> rfl
  | _ => rfl

theorem attr_unplaced (v : Value) (name : String) (span : Span) :
    v.attr name default = (v.attr name span).mapError unplaced := by
  rw [attr, attr, bareAttr_unplaced _ _ span, mapError_map]

theorem bareElement_unplaced (v key : Value) (span : Span) :
    v.bareElement key default = (v.bareElement key span).mapError unplaced := by
  unfold bareElement
  dsimp only
  split
  · rfl
  · split
    · rfl
    · rfl
    · rfl
    · split
      · rfl
      · split
        · split <;> rfl
        · split <;> rfl
        · rfl

theorem element_unplaced (v key : Value) (span : Span) :
    v.element key default = (v.element key span).mapError unplaced := by
  rw [element, element, bareElement_unplaced _ _ span, mapError_map]

theorem step_unplaced (v : Value) (s : Step) :
    v.step s.unplaced = (v.step s).mapError unplaced := by
  cases s with
  | attr span name => exact attr_unplaced v name span
  | index span key => exact element_unplaced v key span

theorem steps_unplaced (v : Value) (steps : List Step) :
    v.steps (steps.map Step.unplaced) = (v.steps steps).mapError unplaced := by
  induction steps generalizing v with
  | nil => rfl
  | cons s steps ih =>
    rw [List.map_cons, Value.steps, Value.steps, step_unplaced]
    cases v.step s with
    | error e => rfl
    | ok w => exact ih w

theorem stepsOfEach_unplaced (each : List Step) (vs : List Value) :
    stepsOfEach (each.map Step.unplaced) vs = (stepsOfEach each vs).mapError unplaced := by
  induction vs with
  | nil => rfl
  | cons v vs ih =>
    rw [stepsOfEach, stepsOfEach, steps_unplaced, ih]
    cases v.steps each with
    | error e => rfl
    | ok part => cases stepsOfEach each vs <;> rfl

theorem splat_unplaced (v : Value) (each : List Step) :
    v.splat (each.map Step.unplaced) = (v.splat each).mapError unplaced := by
  have hbare (w : Value) :
      w.bareSplat (each.map Step.unplaced) = (w.bareSplat each).mapError unplaced := by
    unfold bareSplat
    split
    · rfl
    · rfl
    · split
      · rw [stepsOfEach_unplaced, mapError_map]
      · rw [steps_unplaced, mapError_map]
  rw [splat, splat, hbare, mapError_map]

end Value

namespace Operator

open EvalError (unplaced)

theorem operand_unplaced (v : Value) (ty : Ty) (span : Span) (side : Side) :
    operand v ty default side = (operand v ty span side).mapError unplaced := by
  unfold operand
  split
  · rfl
  · split <;> rfl

theorem unary_unplaced (op : UnaryOp) (v : Value) (span : Span) :
    unary op v default = (unary op v span).mapError unplaced := by
  cases op with
  | neg =>
    rw [unary, unary, operand_unplaced v .number span, Value.mapError_bind]
    refine bind_congr fun w => ?_
    split <;> rfl
  | not =>
    rw [unary, unary, operand_unplaced v .bool span, Value.mapError_bind]
    refine bind_congr fun w => ?_
    split <;> rfl

theorem numeric_unplaced (op : BinaryOp) (a b : Number) (span : Span) :
    numeric op a b default = (numeric op a b span).mapError unplaced := by
  cases op with
  | div =>
    rw [numeric, numeric]
    cases a.div b <;> rfl
  | mod =>
    rw [numeric, numeric]
    cases a.mod b <;> rfl
  | _ => rfl

theorem binary_unplaced (op : BinaryOp) (l r : Value) (lspan rspan span : Span) :
    binary op l r default default default =
      (binary op l r lspan rspan span).mapError unplaced := by
  unfold binary
  split
  · rfl
  · rfl
  · rw [operand_unplaced l .bool lspan, operand_unplaced r .bool rspan]
    simp only [Value.mapError_bind]
    rfl
  · rw [operand_unplaced l .bool lspan, operand_unplaced r .bool rspan]
    simp only [Value.mapError_bind]
    rfl
  · rw [operand_unplaced l .number lspan, operand_unplaced r .number rspan]
    simp only [Value.mapError_bind]
    refine bind_congr fun v => bind_congr fun w => ?_
    split
    · exact numeric_unplaced op _ _ span
    · rfl

end Operator

/-- What is called does not know where it is called. -/
def Setting.placeless (s : Setting) : Setting :=
  ⟨fun _ name => s.library default name, s.pureOnly⟩

namespace Eval

theorem callNamed_unplaced (s : Setting) (name : String) (args : List Value) (span : Span) :
    callNamed s.placeless name args default =
      (callNamed s.placeless name args span).mapError EvalError.unplaced := by
  unfold callNamed Setting.placeless
  dsimp only
  split
  · rfl
  · split <;> rfl

/-- Before the last argument all are taken as they are. -/
theorem expandLast_cons_cons (span : Span) (v w : Value) (vs : List Value) :
    expandLast span (v :: w :: vs) =
      (expandLast span (w :: vs)).map (Option.map (v :: ·)) := by
  rw [expandLast]
  · cases expandLast span (w :: vs) with
    | error e => rfl
    | ok rest => cases rest <;> rfl
  · exact List.cons_ne_nil w vs

theorem expandLast_unplaced (span : Span) (vs : List Value) :
    expandLast default vs = (expandLast span vs).mapError EvalError.unplaced := by
  induction vs with
  | nil => rfl
  | cons v vs ih =>
    cases vs with
    | nil =>
      rw [expandLast, expandLast]
      split <;> rfl
    | cons w vs =>
      rw [expandLast_cons_cons, expandLast_cons_cons, ih, Value.mapError_map]

theorem interpolated_unplaced (v : Value) (place span : Span) :
    interpolated v default default =
      (interpolated v place span).mapError EvalError.unplaced := by
  unfold interpolated
  split
  · rfl
  · split
    · rfl
    · split <;> rfl

theorem keyText_unplaced (v : Value) (span : Span) (null : EvalFault)
    (wrong : ConversionError → EvalFault) :
    keyText v default null wrong =
      (keyText v span null wrong).mapError EvalError.unplaced := by
  unfold keyText
  split
  · rfl
  · split
    · rfl
    · split <;> rfl

theorem unplaced_tell (ds : Diagnostics) :
    unplaced (tell ds) = tell (ds.map Diagnostic.unplaced) :=
  unplaced_lift _

theorem chooseBranch_unplaced (c : Value) (condSpan span : Span) (yes no : Report Value) :
    chooseBranch c default default yes.unplaced no.unplaced =
      unplaced (chooseBranch c condSpan span yes no) := by
  obtain ⟨yv, yds⟩ := yes
  obtain ⟨nv, nds⟩ := no
  unfold chooseBranch Report.unplaced
  dsimp only
  split
  · rfl
  · split
    · rfl
    · split
      · rw [unplaced_bind, unplaced_tell, List.map_append, unplaced_fail]
      · split
        · rw [unplaced_bind, unplaced_tell, List.map_append]
          rfl
        · rw [unplaced_bind, unplaced_tell]
          rfl
        · rw [unplaced_bind, unplaced_tell]
          rfl

theorem gather_unplaced {unique : Bool} {span : Span}
    {round round' : Value × Value → Eval (Item × Bool)}
    (h : ∀ pair, round' pair = unplaced (round pair)) (pairs : List (Value × Value)) :
    ∀ kept marked, gather unique default round' kept marked pairs =
      unplaced (gather unique span round kept marked pairs) := by
  induction pairs with
  | nil => exact fun _ _ => rfl
  | cons pair pairs ih =>
    intro kept marked
    rw [gather, gather, unplaced_bind, h pair]
    refine congrArg (unplaced (round pair) >>= ·) (funext fun gathered => ?_)
    obtain ⟨item, m⟩ := gathered
    cases item with
    | skip => exact ih _ _
    | unknown => rfl
    | keep key value =>
      cases key with
      | none => exact ih _ _
      | some k =>
        dsimp only
        split
        · rfl
        · exact ih _ _

variable {s : Setting}

theorem span_map_unplacedOption (key : Option Expr) :
    ((Expr.unplacedOption key).map Expr.span).getD default = default := by
  cases key with
  | none => rfl
  | some key => exact Expr.span_unplaced key

theorem isSome_unplacedOption (key : Option Expr) :
    (Expr.unplacedOption key).isSome = key.isSome := by
  cases key <;> rfl

theorem lastSpan_unplaced (args : List Expr) :
    lastSpan default (Expr.unplacedAll args) = default := by
  rw [lastSpan]
  cases hlast : (Expr.unplacedAll args).getLast? with
  | none => rfl
  | some e =>
    rw [Expr.unplacedAll_eq] at hlast
    obtain ⟨e', -, rfl⟩ := List.mem_map.1 (List.mem_of_getLast? hlast)
    exact Expr.span_unplaced e'

theorem eval_parts {env : Env} {span : Span} {parts : List TemplatePart}
    (h : ∀ e, parts ≠ [.interp e]) : eval s env (.template span parts) = settle (do
      let (text, marked) ← evalParts s env span parts
      let v := match text with
        | some text => Value.string text
        | none => Value.unknown .string
      pure (v.markIf marked)) := by
  rcases parts with _ | ⟨_ | e, _ | ⟨_, _⟩⟩
  · rfl
  · rfl
  · rfl
  · exact absurd rfl (h e)
  · rfl

/-- Templates that are not a lone interpolation. -/
theorem eval_unplacedTemplate {env : Env} {span : Span} {parts parts' : List TemplatePart}
    (h : ∀ e, parts ≠ [.interp e]) (h' : ∀ e, parts' ≠ [.interp e])
    (hparts : evalParts s env default parts' = unplaced (evalParts s env span parts)) :
    eval s env (.template default parts') = (eval s env (.template span parts)).unplaced := by
  rw [eval_parts h, eval_parts h', ← settle_unplaced, unplaced_bind, hparts]
  rfl

theorem iterate_unplaced {entry entry' : Value × Value → Eval (Item × Bool)}
    (h : ∀ pair, entry' pair = unplaced (entry pair)) (keyed group : Bool) (span keySpan : Span)
    (c : Value) :
    iterate entry' keyed group default default c =
      unplaced (iterate entry keyed group span keySpan c) := by
  unfold iterate
  split
  · rfl
  · rfl
  · split
    · rfl
    · rw [unplaced_bind, gather_unplaced h]
      refine bind_congr fun gathered => ?_
      obtain ⟨kept, marked⟩ := gathered
      cases kept <;> rfl

mutual

/-- Without ranges an expression has the same value, and reports the same but for places. -/
theorem eval_unplaced (s : Setting) : ∀ (e : Expr) (env : Env),
    eval s.placeless env e.unplaced = (eval s.placeless env e).unplaced
  | .literal _ _, _ => by simp only [Expr.unplaced, eval, ← settle_unplaced, unplaced_pure]
  | .traversal _ root steps, env => by
    simp only [Expr.unplaced, eval, ← settle_unplaced]
    refine congrArg settle ?_
    split
    · rw [unplaced_ofExcept, Value.steps_unplaced]
    · rfl
  | .parens _ inner, env => by
    simp only [Expr.unplaced, eval, ← settle_unplaced, unplaced_lift, eval_unplaced s inner]
  | .relative _ source steps, env => by
    simp only [Expr.unplaced, eval, ← settle_unplaced, unplaced_lift, unplaced_bind,
      unplaced_ofExcept, eval_unplaced s source, Value.steps_unplaced]
  | .splat _ source each, env => by
    simp only [Expr.unplaced, eval, ← settle_unplaced, unplaced_lift, unplaced_bind,
      unplaced_ofExcept, eval_unplaced s source, Value.splat_unplaced]
  | .unary span op operand, env => by
    simp only [Expr.unplaced, eval, ← settle_unplaced, unplaced_lift, unplaced_bind,
      unplaced_ofExcept, unplaced_pure, eval_unplaced s operand,
      Operator.unary_unplaced op _ span]
  | .index span collection key, env => by
    simp only [Expr.unplaced, eval, ← settle_unplaced, unplaced_lift, unplaced_bind,
      unplaced_ofExcept, eval_unplaced s collection, eval_unplaced s key,
      Value.element_unplaced _ _ span]
  | .binary span op lhs rhs, env => by
    simp only [Expr.unplaced, eval, ← settle_unplaced, unplaced_lift, unplaced_bind,
      unplaced_ofExcept, unplaced_pure, eval_unplaced s lhs, eval_unplaced s rhs,
      Expr.span_unplaced, Operator.binary_unplaced op _ _ lhs.span rhs.span span]
  | .conditional span cond yes no, env => by
    simp only [Expr.unplaced, eval, ← settle_unplaced, unplaced_lift, unplaced_bind,
      eval_unplaced s cond, eval_unplaced s yes, eval_unplaced s no, Expr.span_unplaced,
      chooseBranch_unplaced _ cond.span span]
  | .tuple _ items, env => by
    simp only [Expr.unplaced, eval, ← settle_unplaced, unplaced_lift, unplaced_bind,
      unplaced_pure, evalAll_unplaced s items]
  | .object _ items, env => by
    simp only [Expr.unplaced, eval, ← settle_unplaced, unplaced_bind, unplaced_pure,
      evalItems_unplaced s items]
  | .call span name args expand, env => by
    simp only [Expr.unplaced, eval, ← settle_unplaced, unplaced_lift, unplaced_bind,
      evalAll_unplaced s args, lastSpan_unplaced]
    refine congrArg settle (bind_congr fun vs => ?_)
    cases expand with
    | false =>
      simp only [Bool.false_eq_true, if_false, unplaced_ofExcept, callNamed_unplaced s name vs span]
    | true =>
      simp only [if_true, unplaced_bind, unplaced_ofExcept,
        expandLast_unplaced (lastSpan span args)]
      refine bind_congr fun found => ?_
      cases found with
      | none => rfl
      | some vs => simp only [unplaced_ofExcept, callNamed_unplaced s name vs span]
  -- A lone interpolation is evaluated differently.
  | .template _ [.interp inner], env => by
    simp only [Expr.unplaced, Expr.unplacedTemplate, eval, ← settle_unplaced, unplaced_lift,
      eval_unplaced s inner]
  | .template span [], env => eval_unplacedTemplate nofun nofun (evalParts_unplaced s span [] env)
  | .template span (.text text :: parts), env =>
    eval_unplacedTemplate nofun nofun (evalParts_unplaced s span (.text text :: parts) env)
  | .template span (.interp inner :: part :: parts), env => by
    refine eval_unplacedTemplate nofun ?_
      (evalParts_unplaced s span (.interp inner :: part :: parts) env)
    cases part <;> exact nofun
  | .forEach span keyVar valueVar collection key value cond group, env => by
    rw [Expr.unplaced, eval_forEach, eval_forEach, ← settle_unplaced, unplaced_bind,
      unplaced_lift, eval_unplaced s collection, Expr.span_unplaced, span_map_unplacedOption,
      isSome_unplacedOption]
    refine congrArg settle (bind_congr fun c => iterate_unplaced (fun pair => ?_) _ _ _ _ c)
    simp only [forEntry, unplaced_bind, evalFilter_unplaced s cond]
    refine bind_congr fun filtered => ?_
    obtain ⟨_ | _ | _, m⟩ := filtered
    · rfl
    · rfl
    · simp only [unplaced_bind, evalKey_unplaced s key]
      refine bind_congr fun keyed => ?_
      obtain ⟨text, n⟩ := keyed
      cases text with
      | none => rfl
      | some text =>
        simp only [unplaced_bind, unplaced_lift, unplaced_pure, eval_unplaced s value]

theorem evalAll_unplaced (s : Setting) : ∀ (es : List Expr) (env : Env),
    evalAll s.placeless env (Expr.unplacedAll es) = (evalAll s.placeless env es).unplaced
  | [], _ => rfl
  | e :: es, env => by
    simp only [Expr.unplacedAll, evalAll, Report.unplaced_bind, Report.unplaced_pure,
      eval_unplaced s e, evalAll_unplaced s es]

theorem evalParts_unplaced (s : Setting) (span : Span) : ∀ (parts : List TemplatePart)
    (env : Env), evalParts s.placeless env default (Expr.unplacedTemplate parts) =
      unplaced (evalParts s.placeless env span parts)
  | [], _ => rfl
  | .text _ :: parts, env => by
    simp only [Expr.unplacedTemplate, evalParts, unplaced_bind, evalParts_unplaced s span parts,
      unplaced_pure]
  | .interp e :: parts, env => by
    simp only [Expr.unplacedTemplate, evalParts, unplaced_bind, evalParts_unplaced s span parts,
      unplaced_pure, unplaced_lift, eval_unplaced s e, unplaced_ofExcept, Expr.span_unplaced,
      interpolated_unplaced _ e.span span]

theorem evalItems_unplaced (s : Setting) : ∀ (items : List (ObjectKey × Expr)) (env : Env)
    (attrs : Fields Value), evalItems s.placeless env attrs (Expr.unplacedItems items) =
      unplaced (evalItems s.placeless env attrs items)
  | [], _, _ => rfl
  | (.name _ _, value) :: items, env, attrs => by
    simp only [Expr.unplacedItems, evalItems, unplaced_bind, unplaced_lift,
      eval_unplaced s value, evalItems_unplaced s items]
  | (.expr key, value) :: items, env, attrs => by
    simp only [Expr.unplacedItems, evalItems, unplaced_bind, unplaced_lift, eval_unplaced s key,
      Expr.span_unplaced, unplaced_ofExcept, keyText_unplaced _ key.span]
    refine bind_congr fun k => bind_congr fun text => ?_
    cases text with
    | none => simp only [unplaced_bind, unplaced_pure, evalItems_unplaced s items]
    | some name =>
      simp only [unplaced_bind, unplaced_lift, unplaced_pure, eval_unplaced s value,
        evalItems_unplaced s items]

theorem evalFilter_unplaced (s : Setting) : ∀ (cond : Option Expr) (env : Env),
    evalFilter s.placeless env (Expr.unplacedOption cond) =
      unplaced (evalFilter s.placeless env cond)
  | none, _ => rfl
  | some cond, env => by
    simp only [Expr.unplacedOption, evalFilter, unplaced_bind, unplaced_lift, eval_unplaced s cond,
      Expr.span_unplaced]
    refine bind_congr fun c => ?_
    split
    · rfl
    · split <;> rfl

theorem evalKey_unplaced (s : Setting) : ∀ (key : Option Expr) (env : Env),
    evalKey s.placeless env (Expr.unplacedOption key) = unplaced (evalKey s.placeless env key)
  | none, _ => rfl
  | some key, env => by
    simp only [Expr.unplacedOption, evalKey, unplaced_bind, unplaced_lift, eval_unplaced s key,
      unplaced_ofExcept, unplaced_pure, Expr.span_unplaced,
      keyText_unplaced _ key.span]

end

end Eval

namespace Expr

mutual

theorem parts_unplaced : ∀ e : Expr, e.unplaced.parts = e.parts.map unplaced
  | .literal _ _ => rfl
  | .traversal _ _ _ => rfl
  | .template span parts => by
    simp only [unplaced, Expr.parts, List.map_cons, partsOfTemplate_unplaced parts]
  | .relative _ source _ => by
    simp only [unplaced, parts, List.map_cons, parts_unplaced source]
  | .index _ collection key => by
    simp only [unplaced, parts, List.map_cons, List.map_append, parts_unplaced collection,
      parts_unplaced key]
  | .splat _ source _ => by
    simp only [unplaced, parts, List.map_cons, parts_unplaced source]
  | .tuple _ items => by
    simp only [unplaced, parts, List.map_cons, partsOfAll_unplaced items]
  | .object _ items => by
    simp only [unplaced, parts, List.map_cons, partsOfItems_unplaced items]
  | .call _ _ args _ => by
    simp only [unplaced, parts, List.map_cons, partsOfAll_unplaced args]
  | .unary _ _ operand => by
    simp only [unplaced, parts, List.map_cons, parts_unplaced operand]
  | .binary _ _ lhs rhs => by
    simp only [unplaced, parts, List.map_cons, List.map_append, parts_unplaced lhs,
      parts_unplaced rhs]
  | .conditional _ cond yes no => by
    simp only [unplaced, parts, List.map_cons, List.map_append, parts_unplaced cond,
      parts_unplaced yes, parts_unplaced no]
  | .forEach _ _ _ collection key value cond _ => by
    simp only [unplaced, parts, List.map_cons, List.map_append, parts_unplaced collection,
      partsOfOption_unplaced key, parts_unplaced value, partsOfOption_unplaced cond]
  | .parens _ inner => by
    simp only [unplaced, parts, List.map_cons, parts_unplaced inner]

theorem partsOfAll_unplaced : ∀ es : List Expr,
    partsOfAll (unplacedAll es) = (partsOfAll es).map unplaced
  | [] => rfl
  | e :: es => by
    simp only [unplacedAll, partsOfAll, List.map_append, parts_unplaced e, partsOfAll_unplaced es]

theorem partsOfOption_unplaced : ∀ e : Option Expr,
    partsOfOption (unplacedOption e) = (partsOfOption e).map unplaced
  | none => rfl
  | some e => parts_unplaced e

theorem partsOfTemplate_unplaced : ∀ parts : List TemplatePart,
    partsOfTemplate (unplacedTemplate parts) = (partsOfTemplate parts).map unplaced
  | [] => rfl
  | .text _ :: parts => partsOfTemplate_unplaced parts
  | .interp e :: parts => by
    simp only [unplacedTemplate, partsOfTemplate, List.map_append, parts_unplaced e,
      partsOfTemplate_unplaced parts]

theorem partsOfItems_unplaced : ∀ items : List (ObjectKey × Expr),
    partsOfItems (unplacedItems items) = (partsOfItems items).map unplaced
  | [] => rfl
  | (.name _ _, value) :: items => by
    simp only [unplacedItems, partsOfItems, List.map_append, parts_unplaced value,
      partsOfItems_unplaced items]
  | (.expr key, value) :: items => by
    simp only [unplacedItems, partsOfItems, List.map_append, parts_unplaced key,
      parts_unplaced value, partsOfItems_unplaced items]

end

theorem callee?_unplaced (e : Expr) : e.unplaced.callee? = e.callee? := by
  cases e <;> rw [unplaced] <;> rfl

theorem callsIn_unplaced {names : Set String} {e : Expr} :
    e.unplaced.CallsIn names ↔ e.CallsIn names := by
  simp only [CallsIn, parts_unplaced, List.forall_mem_map, callee?_unplaced]

end Expr

/-- Expressions that differ in their ranges only have the same value, and report the same but for
places, if the functions that they call do not know where they are called. -/
theorem Eval.eval_eq_of_unplaced_eq {s : Setting} {names : Set String} {e e' : Expr}
    (h : e.unplaced = e'.unplaced) (hcalls : e.CallsIn names)
    (hs : Setting.AgreeOn names s s.placeless) (env : Env) :
    (eval s env e).unplaced = (eval s env e').unplaced := by
  have hcalls' : e'.CallsIn names := by
    rw [← Expr.callsIn_unplaced, ← h]
    exact Expr.callsIn_unplaced.2 hcalls
  rw [hs.eval e env hcalls, hs.eval e' env hcalls', ← eval_unplaced, h, eval_unplaced]

end StaticConfig
