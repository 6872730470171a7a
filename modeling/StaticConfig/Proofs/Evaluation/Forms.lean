import StaticConfig.Eval.Basic
import StaticConfig.Proofs.Except

/-!
Runs that finish without diagnostics. Such a run of a chain of computations consists of such runs
of its links, so it can be taken apart into the values that the links gave.
-/
namespace StaticConfig

variable {α β : Type}

namespace Report

theorem eq_of_diags {r : Report α} {a : α} (hr : r.result = a) (hd : r.diags = []) :
    r = ⟨a, []⟩ := by
  cases r
  cases hr
  cases hd
  rfl

theorem bind_eq_clean {r : Report α} {f : α → Report β} {b : β} :
    (r >>= f) = ⟨b, []⟩ ↔ ∃ a, r = ⟨a, []⟩ ∧ f a = ⟨b, []⟩ := by
  constructor
  · intro h
    have hd : r.diags ++ (f r.result).diags = [] := congrArg Report.diags h
    obtain ⟨hr, hf⟩ := List.append_eq_nil_iff.1 hd
    exact ⟨r.result, eq_of_diags rfl hr, eq_of_diags (congrArg Report.result h) hf⟩
  · rintro ⟨a, rfl, hf⟩
    rw [bind_eq, hf]
    rfl

end Report

namespace Eval

/-- The computation succeeds with the value and reports nothing. -/
def Gives (m : Eval α) (a : α) : Prop :=
  m = (⟨.ok a, []⟩ : Report (Except EvalError α))

theorem gives_pure {a b : α} : Gives (pure a) b ↔ a = b := by
  constructor
  · intro h
    cases h
    rfl
  · rintro rfl
    rfl

theorem gives_bind {m : Eval α} {f : α → Eval β} {b : β} :
    Gives (m >>= f) b ↔ ∃ a, Gives m a ∧ Gives (f a) b := by
  constructor
  · intro h
    obtain ⟨result, hm, hf⟩ := Report.bind_eq_clean.1 h
    cases result with
    | error e => cases hf
    | ok a => exact ⟨a, hm, hf⟩
  · rintro ⟨a, rfl, hf⟩
    exact hf

theorem gives_report {r : Report α} {a : α} : Gives (liftM r) a ↔ r = ⟨a, []⟩ := by
  constructor
  · intro h
    obtain ⟨b, hr, hb⟩ := Report.bind_eq_clean.1 h
    cases hb
    exact hr
  · rintro rfl
    rfl

theorem gives_ofExcept {r : Except EvalError α} {a : α} : Gives (ofExcept r) a ↔ r = .ok a := by
  cases r with
  | error e =>
    constructor
    · intro h
      cases h
    · intro h
      cases h
  | ok b =>
    constructor
    · intro h
      cases h
      rfl
    · intro h
      cases h
      rfl

theorem not_gives_fail {span : Span} {fault : EvalFault} {a : α} : ¬ Gives (fail span fault) a :=
  fun h => nomatch h

theorem settle_eq_clean {m : Eval Value} {v : Value} : settle m = ⟨v, []⟩ ↔ Gives m v := by
  obtain ⟨result, diags⟩ := m
  cases result with
  | error e =>
    constructor
    · intro h
      have hd : diags ++ [e.diagnostic] = [] := congrArg Report.diags h
      simp at hd
    · intro h
      cases h
  | ok w =>
    constructor
    · intro h
      cases h
      rfl
    · intro h
      cases h
      rfl

end Eval

end StaticConfig

/-!
What a run of each form of expression consists of when it reports nothing. These lemmas are all
that the proofs about runs use of the evaluator.
-/
namespace StaticConfig.Eval

open Value

variable {s : Setting} {env : Env} {span : Span} {v : Value}

-- Tagged here, the evaluator gets its equations once for all that follows.
attribute [local simp] eval evalAll evalParts evalItems evalFilter evalKey

attribute [local simp] settle_eq_clean gives_bind gives_report gives_ofExcept gives_pure
  not_gives_fail

theorem eval_literal_eq_clean {u : Value} : eval s env (.literal span u) = ⟨v, []⟩ ↔ u = v := by
  simp

theorem eval_parens_eq_clean {e : Expr} :
    eval s env (.parens span e) = ⟨v, []⟩ ↔ eval s env e = ⟨v, []⟩ := by
  simp

theorem eval_traversal_eq_clean {root : String} {steps : List Step} :
    eval s env (.traversal span root steps) = ⟨v, []⟩ ↔
      ∃ u, env.lookup root = some u ∧ u.steps steps = .ok v := by
  cases h : env.lookup root with
  | none => simp [h]
  | some u => simp [h]

theorem eval_relative_eq_clean {source : Expr} {steps : List Step} :
    eval s env (.relative span source steps) = ⟨v, []⟩ ↔
      ∃ u, eval s env source = ⟨u, []⟩ ∧ u.steps steps = .ok v := by
  simp

theorem eval_index_eq_clean {collection key : Expr} :
    eval s env (.index span collection key) = ⟨v, []⟩ ↔
      ∃ c k, eval s env collection = ⟨c, []⟩ ∧ eval s env key = ⟨k, []⟩ ∧
        c.element k span = .ok v := by
  simp

theorem eval_splat_eq_clean {source : Expr} {each : List Step} :
    eval s env (.splat span source each) = ⟨v, []⟩ ↔
      ∃ u, eval s env source = ⟨u, []⟩ ∧ u.splat each = .ok v := by
  simp

theorem eval_unary_eq_clean {op : UnaryOp} {operand : Expr} :
    eval s env (.unary span op operand) = ⟨v, []⟩ ↔
      ∃ u o, eval s env operand = ⟨u, []⟩ ∧ Operator.unary op u.bare span = .ok o ∧
        markIf u.hasMark o = v := by
  simp

theorem eval_binary_eq_clean {op : BinaryOp} {lhs rhs : Expr} :
    eval s env (.binary span op lhs rhs) = ⟨v, []⟩ ↔
      ∃ l r o, eval s env lhs = ⟨l, []⟩ ∧ eval s env rhs = ⟨r, []⟩ ∧
        Operator.binary op l.bare r.bare lhs.span rhs.span span = .ok o ∧
        markIf (l.hasMark || r.hasMark) o = v := by
  simp

theorem evalAll_cons_eq_clean {e : Expr} {es : List Expr} {vs : List Value} :
    evalAll s env (e :: es) = ⟨vs, []⟩ ↔
      ∃ u us, eval s env e = ⟨u, []⟩ ∧ evalAll s env es = ⟨us, []⟩ ∧ u :: us = vs := by
  simp only [evalAll, Report.bind_eq_clean, Report.pure_eq, Report.mk.injEq, and_true]
  simp

theorem eval_tuple_eq_clean {items : List Expr} :
    eval s env (.tuple span items) = ⟨v, []⟩ ↔
      ∃ vs, evalAll s env items = ⟨vs, []⟩ ∧ .tuple vs = v := by
  simp

/-! Templates. -/

section Parts

variable {parts : List TemplatePart} {x : Option String × Bool}

theorem gives_parts_text {t : String} :
    Gives (evalParts s env span (.text t :: parts)) x ↔
      ∃ text m, Gives (evalParts s env span parts) (text, m) ∧ (text.map (t ++ ·), m) = x := by
  simp only [evalParts, gives_bind, gives_pure, Prod.exists]

theorem gives_parts_interp {e : Expr} :
    Gives (evalParts s env span (.interp e :: parts)) x ↔
      ∃ u, eval s env e = ⟨u, []⟩ ∧ ∃ t, interpolated u.bare e.span span = .ok t ∧
        ∃ text m, Gives (evalParts s env span parts) (text, m) ∧
          (t.bind fun t => text.map (t ++ ·), u.hasMark || m) = x := by
  simp only [evalParts, gives_bind, gives_report, gives_ofExcept, gives_pure, Prod.exists]
  refine exists_congr fun u => and_congr_right fun _ => exists_congr fun t =>
    and_congr_right fun _ => exists_congr fun text => ?_
  cases t <;> cases text <;> rfl

theorem eval_lone_eq_clean {e : Expr} :
    eval s env (.template span [.interp e]) = ⟨v, []⟩ ↔ eval s env e = ⟨v, []⟩ := by
  simp

theorem eval_template_eq_clean (h : ∀ e, parts ≠ [.interp e]) :
    eval s env (.template span parts) = ⟨v, []⟩ ↔
      ∃ text m, Gives (evalParts s env span parts) (text, m) ∧
        markIf m (text.elim (.unknown .string) .string) = v := by
  rw [eval, settle_eq_clean]
  · simp only [gives_bind, gives_pure, Prod.exists]
    refine exists_congr fun text => ?_
    cases text <;> rfl
  · exact h

end Parts

/-! Objects. -/

section Items

variable {attrs : Fields Value} {items : List (ObjectKey × Expr)} {value : Expr}
  {x : Fields Value × Bool × Bool}

theorem gives_items_name {name : String} :
    Gives (evalItems s env attrs ((.name span name, value) :: items)) x ↔
      ∃ u, eval s env value = ⟨u, []⟩ ∧
        Gives (evalItems s env (attrs.insert name u) items) x := by
  simp

theorem gives_items_expr {key : Expr}
    (h : Gives (evalItems s env attrs ((.expr key, value) :: items)) x) :
    ∃ k t more known m, eval s env key = ⟨k, []⟩ ∧
      keyText k.bare key.span .nullObjectKey .wrongObjectKey = .ok t ∧
      x = (more, known && t.isSome, k.hasMark || m) ∧
      (t = none → Gives (evalItems s env attrs items) (more, known, m)) ∧
      ∀ name, t = some name → ∃ u, eval s env value = ⟨u, []⟩ ∧
        Gives (evalItems s env (attrs.insert name u) items) (more, known, m) := by
  simp only [evalItems, gives_bind, gives_report, gives_ofExcept] at h
  obtain ⟨k, hk, t, ht, h⟩ := h
  cases t with
  | none =>
    simp only [gives_bind, gives_pure] at h
    obtain ⟨⟨more, known, m⟩, hrest, rfl⟩ := h
    exact ⟨k, none, more, known, m, hk, ht, by simp, fun _ => hrest, fun _ h => nomatch h⟩
  | some name =>
    simp only [gives_bind, gives_report, gives_pure] at h
    obtain ⟨u, hu, ⟨more, known, m⟩, hrest, rfl⟩ := h
    refine ⟨k, some name, more, known, m, hk, ht, by simp, (fun h => nomatch h), ?_⟩
    rintro _ ⟨⟩
    exact ⟨u, hu, hrest⟩

theorem eval_object_eq_clean :
    eval s env (.object span items) = ⟨v, []⟩ ↔
      ∃ attrs known m, Gives (evalItems s env [] items) (attrs, known, m) ∧
        markIf m (if known then .object attrs else .dynamic) = v := by
  simp only [eval, settle_eq_clean, gives_bind, gives_pure, Prod.exists]

end Items

/-! Calls. -/

theorem eval_call_eq_clean {name : String} {args : List Expr} :
    eval s env (.call span name args false) = ⟨v, []⟩ ↔
      ∃ vs, evalAll s env args = ⟨vs, []⟩ ∧ callNamed s name vs span = .ok v := by
  simp

theorem eval_expanded_eq_clean {name : String} {args : List Expr} :
    eval s env (.call span name args true) = ⟨v, []⟩ ↔
      ∃ vs x, evalAll s env args = ⟨vs, []⟩ ∧ expandLast (lastSpan span args) vs = .ok x ∧
        ((x = none ∧ markIf (vs.getLast?.any isMarked) .dynamic = v) ∨
          ∃ vs', x = some vs' ∧ callNamed s name vs' span = .ok v) := by
  simp only [eval, settle_eq_clean, gives_bind, gives_report, gives_ofExcept, if_true]
  constructor
  · rintro ⟨vs, hvs, x, hx, h⟩
    refine ⟨vs, x, hvs, hx, ?_⟩
    cases x with
    | none => exact .inl ⟨rfl, gives_pure.1 h⟩
    | some vs' => exact .inr ⟨vs', rfl, gives_ofExcept.1 h⟩
  · rintro ⟨vs, x, hvs, hx, ⟨rfl, h⟩ | ⟨vs', rfl, h⟩⟩
    · exact ⟨vs, hvs, none, hx, gives_pure.2 h⟩
    · exact ⟨vs, hvs, some vs', hx, gives_ofExcept.2 h⟩

theorem eval_conditional_eq_clean {cond yes no : Expr} :
    eval s env (.conditional span cond yes no) = ⟨v, []⟩ ↔
      ∃ c, eval s env cond = ⟨c, []⟩ ∧
        Gives (chooseBranch c cond.span span (eval s env yes) (eval s env no)) v := by
  simp

/-- The value of a conditional, from its decision. The branch that is not taken may report
anything. -/
theorem gives_chooseBranch {c : Value} {condSpan : Span} {yes no : Report Value}
    (h : Gives (chooseBranch c condSpan span yes no) v) :
    ∃ d t, c.bare.isNull = false ∧ truth c.bare = .ok d ∧
      Ty.unify [yes.result.ty, no.result.ty] = some t ∧
      (d = none → yes.diags = [] ∧ no.diags = [] ∧ v = markIf c.hasMark (.unknown t)) ∧
      ∀ b, d = some b → (if b then yes else no).diags = [] ∧
        v = markIf c.hasMark (((if b then yes else no).result.convert? t).getD
          (if b then yes else no).result) := by
  have htold {ds : Diagnostics} (h : Gives (tell ds) ()) : ds = [] :=
    congrArg Report.diags (gives_report.1 h)
  unfold chooseBranch at h
  dsimp only at h
  split at h
  · obtain ⟨_, h, _⟩ := gives_bind.1 h
    exact absurd h not_gives_fail
  next hnull =>
  split at h
  · exact absurd h not_gives_fail
  next d hd =>
  split at h
  · obtain ⟨_, _, h⟩ := gives_bind.1 h
    exact absurd h not_gives_fail
  next t ht =>
  refine ⟨d, t, Bool.eq_false_iff.2 hnull, hd, ht, ?_⟩
  -- Only the branch that is taken has told what it reported.
  split at h
  · obtain ⟨_, htell, h⟩ := gives_bind.1 h
    obtain ⟨hyes, hno⟩ := List.append_eq_nil_iff.1 (htold htell)
    exact ⟨fun _ => ⟨hyes, hno, (gives_pure.1 h).symm⟩, nofun⟩
  · obtain ⟨_, htell, h⟩ := gives_bind.1 h
    refine ⟨nofun, ?_⟩
    rintro _ ⟨⟩
    exact ⟨htold htell, (gives_pure.1 h).symm⟩
  · obtain ⟨_, htell, h⟩ := gives_bind.1 h
    refine ⟨nofun, ?_⟩
    rintro _ ⟨⟩
    exact ⟨htold htell, (gives_pure.1 h).symm⟩

/-! For expressions. -/

theorem gives_filter {cond : Expr} {x : Option Bool × Bool} :
    Gives (evalFilter s env (some cond)) x ↔
      ∃ c d, eval s env cond = ⟨c, []⟩ ∧ c.bare.isNull = false ∧ truth c.bare = .ok d ∧
        (d, c.hasMark) = x := by
  simp only [evalFilter, gives_bind, gives_report]
  constructor
  · rintro ⟨c, hc, h⟩
    split at h
    · obtain ⟨_, h, _⟩ := gives_bind.1 h
      exact absurd h not_gives_fail
    · split at h
      · exact ⟨c, _, hc, Bool.eq_false_iff.2 ‹_›, ‹_›, gives_pure.1 h⟩
      · exact absurd h not_gives_fail
  · rintro ⟨c, d, hc, hn, hd, h⟩
    refine ⟨c, hc, ?_⟩
    simp only [hn, hd, Bool.false_eq_true, if_false]
    exact gives_pure.2 h

theorem gives_key {key : Expr} {x : Option (Option String) × Bool} :
    Gives (evalKey s env (some key)) x ↔
      ∃ k t, eval s env key = ⟨k, []⟩ ∧
        keyText k.bare key.span .nullItemKey .wrongItemKey = .ok t ∧
        (t.map some, k.hasMark) = x := by
  simp

section Rounds

variable {keyVar : Option String} {valueVar : String} {key cond : Option Expr} {value : Expr}

/-- What a for expression does for one entry of its collection. -/
def forEntry (s : Setting) (env : Env) (keyVar : Option String) (valueVar : String)
    (key : Option Expr) (value : Expr) (cond : Option Expr) (pair : Value × Value) :
    Eval (Item × Bool) :=
  let env := bindItem keyVar valueVar pair env
  do
    let (decision, m) ← evalFilter s env cond
    match decision with
    | some true => do
      let (text, n) ← evalKey s env key
      match text with
      | none => pure (.unknown, m || n)
      | some text => do
        let v ← eval s env value
        pure (.keep text v, m || n)
    | some false => pure (.skip, m)
    | none => pure (.unknown, m)

theorem gives_forEntry {pair : Value × Value} {x : Item × Bool}
    (h : Gives (forEntry s env keyVar valueVar key value cond pair) x) :
    ∃ d m, Gives (evalFilter s (bindItem keyVar valueVar pair env) cond) (d, m) ∧
      (m = true → x.2 = true) ∧ (d = none → x = (.unknown, m)) ∧ (d = some false → x = (.skip, m)) ∧
      (d = some true → ∃ t n, Gives (evalKey s (bindItem keyVar valueVar pair env) key) (t, n) ∧
        (n = true → x.2 = true) ∧ (t = none → x = (.unknown, m || n)) ∧
        ∀ k, t = some k → ∃ v, eval s (bindItem keyVar valueVar pair env) value = ⟨v, []⟩ ∧
          x = (.keep k v, m || n)) := by
  simp only [forEntry, gives_bind] at h
  obtain ⟨⟨d, m⟩, hd, h⟩ := h
  refine ⟨d, m, hd, ?_⟩
  cases d with
  | none =>
    cases gives_pure.1 h
    simp
  | some b =>
    cases b with
    | false =>
      cases gives_pure.1 h
      simp
    | true =>
      simp only [gives_bind] at h
      obtain ⟨⟨t, n⟩, ht, h⟩ := h
      cases t with
      | none =>
        cases gives_pure.1 h
        refine ⟨fun h => by simp [h], by simp, by simp, fun _ => ?_⟩
        exact ⟨none, n, ht, fun h => by simp [h], fun _ => rfl, by simp⟩
      | some k =>
        simp only [gives_bind, gives_report] at h
        obtain ⟨v, hv, h⟩ := h
        cases gives_pure.1 h
        refine ⟨fun h => by simp [h], by simp, by simp, fun _ => ?_⟩
        refine ⟨some k, n, ht, fun h => by simp [h], by simp, ?_⟩
        rintro _ ⟨⟩
        exact ⟨v, hv, rfl⟩

theorem gives_gather_cons {unique : Bool} {keySpan : Span}
    {run : Value × Value → Eval (Item × Bool)} {kept : List (Option String × Value)}
    {marked : Bool} {e : Value × Value} {es : List (Value × Value)}
    {x : Option (List (Option String × Value)) × Bool}
    (h : Gives (gather unique keySpan run kept marked (e :: es)) x) :
    ∃ item m, Gives (run e) (item, m) ∧
      (item = .unknown → x = (none, marked || m)) ∧
      (item = .skip → Gives (gather unique keySpan run kept (marked || m) es) x) ∧
      ∀ key v, item = .keep key v →
        Gives (gather unique keySpan run (kept ++ [(key, v)]) (marked || m) es) x := by
  simp only [gather, gives_bind] at h
  obtain ⟨⟨item, m⟩, hi, h⟩ := h
  refine ⟨item, m, hi, ?_⟩
  cases item with
  | skip => exact ⟨(fun h => nomatch h), fun _ => h, fun _ _ h => nomatch h⟩
  | unknown =>
    cases gives_pure.1 h
    exact ⟨fun _ => rfl, (fun h => nomatch h), fun _ _ h => nomatch h⟩
  | keep key v =>
    refine ⟨(fun h => nomatch h), (fun h => nomatch h), ?_⟩
    rintro _ _ ⟨⟩
    cases key with
    | none => exact h
    | some k =>
      simp only at h
      split at h
      · exact absurd h not_gives_fail
      · exact h

/-- The value of a for expression, from its rounds. -/
theorem eval_forEach_of_clean {collection : Expr} {group : Bool}
    (h : eval s env (.forEach span keyVar valueVar collection key value cond group) = ⟨v, []⟩) :
    ∃ c, eval s env collection = ⟨c, []⟩ ∧
      ((∃ t, c.unmarked = .unknown t ∧ v = markIf c.isMarked .dynamic) ∨
        ∃ pairs kept m, c.unmarked.iterated? = some pairs ∧
          Gives (gather (!group) ((key.map Expr.span).getD span)
            (forEntry s env keyVar valueVar key value cond) [] c.isMarked pairs) (kept, m) ∧
          v = markIf m (kept.elim .dynamic (assemble key.isSome group))) := by
  rw [eval, settle_eq_clean] at h
  simp only [gives_bind, gives_report] at h
  obtain ⟨c, hc, h⟩ := h
  refine ⟨c, hc, ?_⟩
  split at h
  · exact absurd h not_gives_fail
  · exact .inl ⟨_, ‹_›, (gives_pure.1 h).symm⟩
  · split at h
    · exact absurd h not_gives_fail
    · obtain ⟨⟨kept, m⟩, hkept, h⟩ := gives_bind.1 h
      refine .inr ⟨_, kept, m, ‹_›, hkept, ?_⟩
      cases kept <;> exact (gives_pure.1 h).symm

end Rounds

end StaticConfig.Eval
