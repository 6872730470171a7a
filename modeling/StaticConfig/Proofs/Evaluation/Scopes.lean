import StaticConfig.Proofs.Evaluation.Compositional

/-!
Evaluation with a stack of scopes. A for expression puts the names of each round on the stack and
takes them off again, also when the round fails, and a name is looked up from the innermost scope
outwards. Such an evaluation is the one in the environment of all names in scope, and it leaves the
stack as it has found it.
-/
namespace StaticConfig.Eval

/-- The names that the for expressions around bind, the innermost first. -/
abbrev Scopes := List Env

/-- A computation that may change the stack of scopes, and may fail with the stack changed. -/
abbrev Stacked := ExceptT EvalError (StateT Scopes Report)

namespace Scopes

/-- What a name stands for in the innermost scope that has it, or else around all scopes. -/
def find? (scopes : Scopes) (outer : Env) (name : String) : Option Value :=
  (scopes.findSome? (List.lookup name)).or (outer.lookup name)

/-- All names in scope. -/
def names (scopes : Scopes) (outer : Env) : Env :=
  scopes.flatten ++ outer

end Scopes

namespace Stacked

variable {α β : Type}

/-- A computation that does not look at the stack. -/
def lift (m : Eval α) : Stacked α :=
  ExceptT.mk (StateT.lift m.run)

/-- Runs the computation with a further scope, which is taken off in any case. -/
def within (scope : Env) (m : Stacked α) : Stacked α :=
  ExceptT.mk fun scopes => do
    let (outcome, left) ← m.run (scope :: scopes)
    pure (outcome, left.tail)

/-- A failure becomes an unknown value and a diagnostic. -/
def settle (m : Stacked Value) : StateT Scopes Report Value := do
  match ← m.run with
  | .ok v => pure v
  | .error e => do
    StateT.lift (Report.tell [e.diagnostic])
    pure .dynamic

/-- The report of the evaluation as a value; nothing is reported yet. -/
def captured (m : StateT Scopes Report Value) : StateT Scopes Report (Report Value) :=
  fun scopes =>
    let r := m scopes
    ⟨(⟨r.result.1, r.diags⟩, r.result.2), []⟩

/-- The rounds of a for expression in order, each in its own scope. -/
def gather (unique : Bool) (keySpan : Span) (bindings : Value × Value → Env)
    (round : Stacked (Item × Bool)) :
    List (Option String × Value) → Bool → List (Value × Value) →
      Stacked (Option (List (Option String × Value)) × Bool)
  | kept, marked, [] => pure (some kept, marked)
  | kept, marked, e :: es => do
    let (item, m) ← within (bindings e) round
    let marked := marked || m
    match item with
    | .skip => gather unique keySpan bindings round kept marked es
    | .unknown => pure (none, marked)
    | .keep key value =>
      match key with
      | some k =>
        if unique && kept.any fun other => other.1 == some k then
          lift (fail keySpan (.duplicateItemKey k))
        else gather unique keySpan bindings round (kept ++ [(key, value)]) marked es
      | none => gather unique keySpan bindings round (kept ++ [(key, value)]) marked es

/-- One round, once its names are on the stack. -/
def entry (filter : Stacked (Option Bool × Bool)) (key : Stacked (Option (Option String) × Bool))
    (value : StateT Scopes Report Value) : Stacked (Item × Bool) := do
  let (decision, m) ← filter
  match decision with
  | some true => do
    let (text, n) ← key
    match text with
    | none => pure (.unknown, m || n)
    | some text => do
      let v ← value
      pure (.keep text v, m || n)
  | some false => pure (.skip, m)
  | none => pure (.unknown, m)

/-- The collection that a for expression makes of a value. -/
def iterate (bindings : Value × Value → Env) (round : Stacked (Item × Bool)) (keyed group : Bool)
    (span keySpan : Span) (c : Value) : Stacked Value :=
  match c.unmarked with
  | .null _ => lift (fail span .nullIteration)
  | .unknown _ => pure (Value.dynamic.markIf c.isMarked)
  | bare =>
    match bare.iterated? with
    | none => lift (fail span (.notIterable bare.ty))
    | some pairs => do
      let (kept, marked) ← gather (!group) keySpan bindings round [] c.isMarked pairs
      match kept with
      | none => pure (Value.dynamic.markIf marked)
      | some kept => pure ((assemble keyed group kept).markIf marked)

mutual

/-- The value of an expression in the scopes on the stack. -/
def eval (s : Setting) (outer : Env) (e : Expr) : StateT Scopes Report Value :=
  settle (match e with
    | .literal _ v => pure v
    | .parens _ inner => liftM (eval s outer inner)
    | .template span parts =>
      match parts with
      | [.interp inner] => liftM (eval s outer inner)
      | parts => do
        let (text, marked) ← evalParts s outer span parts
        let v := match text with
          | some text => Value.string text
          | none => Value.unknown .string
        pure (v.markIf marked)
    | .traversal span root steps => do
      match Scopes.find? (← get) outer root with
      | some v => lift (ofExcept (v.steps steps))
      | none => lift (fail span (.unknownVariable root))
    | .relative _ source steps => do
      let v ← eval s outer source
      lift (ofExcept (v.steps steps))
    | .index span collection key => do
      let c ← eval s outer collection
      let k ← eval s outer key
      lift (ofExcept (c.element k span))
    | .splat _ source each => do
      let v ← eval s outer source
      lift (ofExcept (v.splat each))
    | .tuple _ items => do
      let vs ← evalAll s outer items
      pure (.tuple vs)
    | .object _ items => do
      let (attrs, known, marked) ← evalItems s outer [] items
      pure ((if known then Value.object attrs else .dynamic).markIf marked)
    | .call span name args expand => do
      let vs ← evalAll s outer args
      if expand then
        match ← lift (ofExcept (expandLast (lastSpan span args) vs)) with
        | some vs => lift (ofExcept (callNamed s name vs span))
        | none => pure (Value.dynamic.markIf (vs.getLast?.any Value.isMarked))
      else lift (ofExcept (callNamed s name vs span))
    | .unary span op operand => do
      let v ← eval s outer operand
      let out ← lift (ofExcept (Operator.unary op v.bare span))
      pure (out.markIf v.hasMark)
    | .binary span op lhs rhs => do
      let l ← eval s outer lhs
      let r ← eval s outer rhs
      let out ← lift (ofExcept (Operator.binary op l.bare r.bare lhs.span rhs.span span))
      pure (out.markIf (l.hasMark || r.hasMark))
    | .conditional span cond yes no => do
      let c ← eval s outer cond
      let t ← captured (eval s outer yes)
      let f ← captured (eval s outer no)
      lift (chooseBranch c cond.span span t f)
    | .forEach span keyVar valueVar collection key value cond group => do
      let c ← eval s outer collection
      iterate (bindItem keyVar valueVar · [])
        (entry (evalFilter s outer cond) (evalKey s outer key) (eval s outer value))
        key.isSome group collection.span ((key.map Expr.span).getD span) c)

def evalAll (s : Setting) (outer : Env) : List Expr → StateT Scopes Report (List Value)
  | [] => pure []
  | e :: es => do
    let v ← eval s outer e
    let vs ← evalAll s outer es
    pure (v :: vs)

def evalParts (s : Setting) (outer : Env) (span : Span) :
    List TemplatePart → Stacked (Option String × Bool)
  | [] => pure (some "", false)
  | .text text :: parts => do
    let (rest, marked) ← evalParts s outer span parts
    pure (rest.map (text ++ ·), marked)
  | .interp e :: parts => do
    let v ← eval s outer e
    let text ← lift (ofExcept (interpolated v.bare e.span span))
    let (rest, marked) ← evalParts s outer span parts
    pure (match text, rest with
      | some text, some rest => some (text ++ rest)
      | _, _ => none, v.hasMark || marked)

def evalItems (s : Setting) (outer : Env) (attrs : Fields Value) :
    List (ObjectKey × Expr) → Stacked (Fields Value × Bool × Bool)
  | [] => pure (attrs, true, false)
  | (.name _ name, value) :: items => do
    let v ← eval s outer value
    evalItems s outer (attrs.insert name v) items
  | (.expr key, value) :: items => do
    let k ← eval s outer key
    match ← lift (ofExcept (keyText k.bare key.span .nullObjectKey .wrongObjectKey)) with
    | none => do
      let (attrs, _, marked) ← evalItems s outer attrs items
      pure (attrs, false, k.hasMark || marked)
    | some name => do
      let v ← eval s outer value
      let (attrs, known, marked) ← evalItems s outer (attrs.insert name v) items
      pure (attrs, known, k.hasMark || marked)

def evalFilter (s : Setting) (outer : Env) : Option Expr → Stacked (Option Bool × Bool)
  | none => pure (some true, false)
  | some cond => do
    let c ← eval s outer cond
    let bare := c.bare
    if bare.isNull then lift (fail cond.span .nullFilter)
    match truth bare with
    | .ok decision => pure (decision, c.hasMark)
    | .error e => lift (fail cond.span (.wrongFilter e))

def evalKey (s : Setting) (outer : Env) : Option Expr → Stacked (Option (Option String) × Bool)
  | none => pure (some none, false)
  | some key => do
    let k ← eval s outer key
    let text ← lift (ofExcept (keyText k.bare key.span .nullItemKey .wrongItemKey))
    pure (text.map some, k.hasMark)

end

end Stacked

theorem Scopes.find?_eq (scopes : Scopes) (outer : Env) (name : String) :
    Scopes.find? scopes outer name = (Scopes.names scopes outer).lookup name := by
  induction scopes with
  | nil => rfl
  | cons scope scopes ih =>
    have hrest : (scopes.findSome? (List.lookup name)).or (outer.lookup name) =
        (scopes.flatten ++ outer).lookup name := ih
    rw [names, List.flatten_cons, List.append_assoc, List.lookup_append, ← hrest, find?,
      List.findSome?_cons]
    cases scope.lookup name <;> rfl

namespace Stacked

variable {α β : Type} {scopes : Scopes} {outer : Env} {s : Setting}

/-- The computation gives the report and leaves the stack as it is. -/
def Keeps (scopes : Scopes) (m : StateT Scopes Report α) (r : Report α) : Prop :=
  m scopes = ⟨(r.result, scopes), r.diags⟩

/-- The same of a computation that may fail. -/
abbrev Follows (scopes : Scopes) (m : Stacked α) (r : Eval α) : Prop :=
  Keeps (α := Except EvalError α) scopes m r

theorem keeps_pure (a : α) : Keeps scopes (pure a) (pure a) := rfl

theorem keeps_bind {m : StateT Scopes Report α} {r : Report α} {f : α → StateT Scopes Report β}
    {g : α → Report β} (hm : Keeps scopes m r) (hf : ∀ a, Keeps scopes (f a) (g a)) :
    Keeps scopes (m >>= f) (r >>= g) := by
  have hrun : (m >>= f) scopes = (m scopes) >>= fun p => f p.1 p.2 := rfl
  rw [Keeps, hrun, hm, Report.bind_eq, hf r.result, Report.bind_eq]

theorem follows_pure (a : α) : Follows scopes (pure a) (pure a) := rfl

theorem follows_fail (span : Span) (fault : EvalFault) :
    Follows (α := α) scopes (lift (fail span fault)) (fail span fault) := rfl

theorem follows_lift (m : Eval α) : Follows scopes (lift m) m := by
  have hrun : lift m scopes = Report.bind m fun x => pure (x, scopes) := rfl
  rw [Follows, Keeps, hrun, Report.bind]
  exact congrArg (Report.mk _) (List.append_nil _)

theorem follows_bind {m : Stacked α} {r : Eval α} {f : α → Stacked β} {g : α → Eval β}
    (hm : Follows scopes m r) (hf : ∀ a, Follows scopes (f a) (g a)) :
    Follows scopes (m >>= f) (r >>= g) := by
  refine keeps_bind hm fun x => ?_
  cases x with
  | error e => exact keeps_pure _
  | ok a => exact hf a

theorem follows_report {m : StateT Scopes Report α} {r : Report α} (h : Keeps scopes m r) :
    Follows scopes (liftM m) (liftM r) :=
  keeps_bind h fun a => keeps_pure (Except.ok a)

/-- The further scope is taken off also when the computation has failed. -/
theorem follows_within {scope : Env} {m : Stacked α} {r : Eval α}
    (h : Follows (scope :: scopes) m r) : Follows scopes (within scope m) r := by
  have hrun : within scope m scopes =
      Report.bind (m (scope :: scopes)) fun p => pure (p.1, p.2.tail) := rfl
  rw [Follows, Keeps, hrun, h]
  exact congrArg (Report.mk _) (List.append_nil _)

theorem keeps_settle {m : Stacked Value} {r : Eval Value} (h : Follows scopes m r) :
    Keeps scopes (settle m) (Eval.settle r) := by
  rw [settle_eq]
  refine keeps_bind h fun x => ?_
  cases x with
  | ok v => exact keeps_pure v
  | error e => rfl

theorem keeps_captured {m : StateT Scopes Report Value} {r : Report Value}
    (h : Keeps scopes m r) : Keeps scopes (captured m) ⟨r, []⟩ := by
  rw [Keeps, captured, h]

theorem follows_get {f : Scopes → Stacked α} {r : Eval α} (h : Follows scopes (f scopes) r) :
    Follows scopes (do f (← get)) r :=
  h

/-- A check made first. -/
theorem follows_refused {refused : Prop} [Decidable refused] {span : Span} {fault : EvalFault}
    {m : Stacked α} {r : Eval α} (h : Follows scopes m r) :
    Follows scopes (if refused then (lift (fail span fault) : Stacked PUnit) >>= fun _ => m else m)
      (if refused then (fail span fault : Eval PUnit) >>= fun _ => r else r) := by
  by_cases hrefused : refused
  · simp only [hrefused, if_true]
    exact follows_bind (follows_fail span fault) fun _ => h
  · simp only [hrefused, if_false]
    exact h

theorem follows_conditional {c t f : StateT Scopes Report Value} {rc rt rf : Report Value}
    {condSpan span : Span} (hc : Keeps scopes c rc) (ht : Keeps scopes t rt)
    (hf : Keeps scopes f rf) :
    Follows scopes
      (do
        let c ← liftM c
        let t ← liftM (captured t)
        let f ← liftM (captured f)
        lift (chooseBranch c condSpan span t f))
      (do
        let c ← liftM rc
        chooseBranch c condSpan span rt rf) := by
  refine follows_bind (follows_report hc) fun c => ?_
  have hrun := follows_bind (follows_report (keeps_captured ht)) fun t =>
    follows_bind (follows_report (keeps_captured hf)) fun f =>
      @follows_lift _ scopes (chooseBranch c condSpan span t f)
  exact hrun

theorem follows_gather {unique : Bool} {keySpan : Span} {bindings : Value × Value → Env}
    {round : Stacked (Item × Bool)} {entry : Value × Value → Eval (Item × Bool)}
    (h : ∀ pair, Follows (bindings pair :: scopes) round (entry pair))
    (pairs : List (Value × Value)) :
    ∀ kept marked, Follows scopes (gather unique keySpan bindings round kept marked pairs)
      (Eval.gather unique keySpan entry kept marked pairs) := by
  induction pairs with
  | nil => exact fun kept marked => follows_pure _
  | cons pair pairs ih =>
    intro kept marked
    refine follows_bind (follows_within (h pair)) fun gathered => ?_
    obtain ⟨item, m⟩ := gathered
    cases item with
    | skip => exact ih _ _
    | unknown => exact follows_pure _
    | keep key value =>
      cases key with
      | none => exact ih _ _
      | some k =>
        by_cases hdup : unique && kept.any fun other => other.1 == some k
        · simp only [hdup, if_true]
          exact follows_fail _ _
        · simp only [hdup]
          exact ih _ _

theorem follows_iterate {bindings : Value × Value → Env} {round : Stacked (Item × Bool)}
    {entry : Value × Value → Eval (Item × Bool)}
    (h : ∀ pair, Follows (bindings pair :: scopes) round (entry pair)) (keyed group : Bool)
    (span keySpan : Span) (c : Value) :
    Follows scopes (iterate bindings round keyed group span keySpan c)
      (Eval.iterate entry keyed group span keySpan c) := by
  unfold iterate Eval.iterate
  cases c.unmarked with
  | null ty => exact follows_fail _ _
  | unknown ty => exact follows_pure _
  | _ =>
    dsimp only
    generalize Value.iterated? _ = found
    cases found with
    | none => exact follows_fail _ _
    | some pairs =>
      refine follows_bind (follows_gather h pairs _ _) fun gathered => ?_
      obtain ⟨kept, marked⟩ := gathered
      cases kept with
      | none => exact follows_pure _
      | some kept => exact follows_pure _

theorem follows_entry {filter : Stacked (Option Bool × Bool)}
    {key : Stacked (Option (Option String) × Bool)} {value : StateT Scopes Report Value}
    {keyVar : Option String} {valueVar : String} {keyExpr cond : Option Expr} {valueExpr : Expr}
    {env : Env} {pair : Value × Value}
    (hfilter : Follows scopes filter (Eval.evalFilter s (bindItem keyVar valueVar pair env) cond))
    (hkey : Follows scopes key (Eval.evalKey s (bindItem keyVar valueVar pair env) keyExpr))
    (hvalue : Keeps scopes value (Eval.eval s (bindItem keyVar valueVar pair env) valueExpr)) :
    Follows scopes (entry filter key value)
      (forEntry s env keyVar valueVar keyExpr valueExpr cond pair) := by
  refine follows_bind hfilter fun filtered => ?_
  obtain ⟨_ | _ | _, m⟩ := filtered
  · exact follows_pure _
  · exact follows_pure _
  · refine follows_bind hkey fun keyed => ?_
    obtain ⟨text, n⟩ := keyed
    cases text with
    | none => exact follows_pure _
    | some text => exact follows_bind (follows_report hvalue) fun _ => follows_pure _

theorem names_bindItem {keyVar : Option String} {valueVar : String} {pair : Value × Value} :
    Scopes.names (bindItem keyVar valueVar pair [] :: scopes) outer =
      bindItem keyVar valueVar pair (Scopes.names scopes outer) := by
  rw [bindItem_eq, bindItem_eq, List.append_nil, Scopes.names, List.flatten_cons,
    List.append_assoc]
  rfl

mutual

/-- An evaluation on a stack of scopes is the one in the environment of all names in scope. -/
theorem keeps_eval (s : Setting) (outer : Env) (scopes : Scopes) :
    ∀ e : Expr, Keeps scopes (eval s outer e) (Eval.eval s (Scopes.names scopes outer) e)
  | .literal _ v => keeps_settle (follows_pure v)
  | .parens _ inner => keeps_settle (follows_report (keeps_eval s outer scopes inner))
  | .template _ [.interp inner] =>
    keeps_settle (follows_report (keeps_eval s outer scopes inner))
  | .template span [] =>
    keeps_settle (follows_bind (follows_evalParts s outer scopes span []) fun _ => follows_pure _)
  | .template span (.text text :: parts) =>
    keeps_settle (follows_bind (follows_evalParts s outer scopes span (.text text :: parts))
      fun _ => follows_pure _)
  | .template span (.interp inner :: part :: parts) =>
    keeps_settle (follows_bind
      (follows_evalParts s outer scopes span (.interp inner :: part :: parts))
      fun _ => follows_pure _)
  | .traversal span root steps => by
    rw [eval, Eval.eval, ← Scopes.find?_eq]
    refine keeps_settle (follows_get ?_)
    cases Scopes.find? scopes outer root with
    | none => exact follows_fail _ _
    | some v => exact follows_lift _
  | .relative _ source steps =>
    keeps_settle (follows_bind (follows_report (keeps_eval s outer scopes source)) fun _ =>
      follows_lift _)
  | .index _ collection key =>
    keeps_settle (follows_bind (follows_report (keeps_eval s outer scopes collection)) fun _ =>
      follows_bind (follows_report (keeps_eval s outer scopes key)) fun _ => follows_lift _)
  | .splat _ source each =>
    keeps_settle (follows_bind (follows_report (keeps_eval s outer scopes source)) fun _ =>
      follows_lift _)
  | .tuple _ items =>
    keeps_settle (follows_bind (follows_report (keeps_evalAll s outer scopes items)) fun _ =>
      follows_pure _)
  | .object _ items =>
    keeps_settle (follows_bind (follows_evalItems s outer scopes items []) fun _ => follows_pure _)
  | .call span name args expand => by
    rw [eval, Eval.eval]
    refine keeps_settle (follows_bind (follows_report (keeps_evalAll s outer scopes args))
      fun vs => ?_)
    cases expand with
    | false => exact follows_lift _
    | true =>
      refine follows_bind (follows_lift _) fun found => ?_
      cases found with
      | none => exact follows_pure _
      | some vs => exact follows_lift _
  | .unary _ op operand =>
    keeps_settle (follows_bind (follows_report (keeps_eval s outer scopes operand)) fun _ =>
      follows_bind (follows_lift _) fun _ => follows_pure _)
  | .binary _ op lhs rhs =>
    keeps_settle (follows_bind (follows_report (keeps_eval s outer scopes lhs)) fun _ =>
      follows_bind (follows_report (keeps_eval s outer scopes rhs)) fun _ =>
        follows_bind (follows_lift _) fun _ => follows_pure _)
  | .conditional _ cond yes no =>
    keeps_settle (follows_conditional (keeps_eval s outer scopes cond)
      (keeps_eval s outer scopes yes) (keeps_eval s outer scopes no))
  | .forEach span keyVar valueVar collection key value cond group => by
    rw [eval, Eval.eval_forEach]
    refine keeps_settle (follows_bind (follows_report (keeps_eval s outer scopes collection))
      fun c => ?_)
    refine follows_iterate (fun pair => ?_) _ _ _ _ c
    have hnames : Scopes.names (bindItem keyVar valueVar pair [] :: scopes) outer =
        bindItem keyVar valueVar pair (Scopes.names scopes outer) := names_bindItem
    exact follows_entry (hnames ▸ follows_evalFilter s outer _ cond)
      (hnames ▸ follows_evalKey s outer _ key) (hnames ▸ keeps_eval s outer _ value)

theorem keeps_evalAll (s : Setting) (outer : Env) (scopes : Scopes) :
    ∀ es : List Expr,
      Keeps scopes (evalAll s outer es) (Eval.evalAll s (Scopes.names scopes outer) es)
  | [] => keeps_pure _
  | e :: es =>
    keeps_bind (keeps_eval s outer scopes e) fun _ =>
      keeps_bind (keeps_evalAll s outer scopes es) fun _ => keeps_pure _

theorem follows_evalParts (s : Setting) (outer : Env) (scopes : Scopes) (span : Span) :
    ∀ parts : List TemplatePart, Follows scopes (evalParts s outer span parts)
      (Eval.evalParts s (Scopes.names scopes outer) span parts)
  | [] => follows_pure _
  | .text _ :: parts =>
    follows_bind (follows_evalParts s outer scopes span parts) fun _ => follows_pure _
  | .interp e :: parts =>
    follows_bind (follows_report (keeps_eval s outer scopes e)) fun _ =>
      follows_bind (follows_lift _) fun _ =>
        follows_bind (follows_evalParts s outer scopes span parts) fun _ => follows_pure _

theorem follows_evalItems (s : Setting) (outer : Env) (scopes : Scopes) :
    ∀ (items : List (ObjectKey × Expr)) (attrs : Fields Value),
      Follows scopes (evalItems s outer attrs items)
        (Eval.evalItems s (Scopes.names scopes outer) attrs items)
  | [], _ => follows_pure _
  | (.name _ _, value) :: items, _ =>
    follows_bind (follows_report (keeps_eval s outer scopes value)) fun _ =>
      follows_evalItems s outer scopes items _
  | (.expr key, value) :: items, attrs => by
    refine follows_bind (follows_report (keeps_eval s outer scopes key)) fun k => ?_
    refine follows_bind (follows_lift _) fun name => ?_
    cases name with
    | none =>
      exact follows_bind (follows_evalItems s outer scopes items _) fun _ => follows_pure _
    | some name =>
      exact follows_bind (follows_report (keeps_eval s outer scopes value)) fun _ =>
        follows_bind (follows_evalItems s outer scopes items _) fun _ => follows_pure _

theorem follows_evalFilter (s : Setting) (outer : Env) (scopes : Scopes) :
    ∀ cond : Option Expr, Follows scopes (evalFilter s outer cond)
      (Eval.evalFilter s (Scopes.names scopes outer) cond)
  | none => follows_pure _
  | some cond => by
    refine follows_bind (follows_report (keeps_eval s outer scopes cond)) fun c => ?_
    refine follows_refused ?_
    cases truth c.bare with
    | ok decision => exact follows_pure _
    | error e => exact follows_fail _ _

theorem follows_evalKey (s : Setting) (outer : Env) (scopes : Scopes) :
    ∀ key : Option Expr, Follows scopes (evalKey s outer key)
      (Eval.evalKey s (Scopes.names scopes outer) key)
  | none => follows_pure _
  | some key =>
    follows_bind (follows_report (keeps_eval s outer scopes key)) fun _ =>
      follows_bind (follows_lift _) fun _ => follows_pure _

end

end Stacked

end StaticConfig.Eval
