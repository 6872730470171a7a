import StaticConfig.Eval.Basic
import StaticConfig.Proofs.Evaluation.Forms
import StaticConfig.Reference

/-!
What the rounds of a for expression see. The variables of the expression come before all other
names, so of the names around it only those that it does not bind can be seen.
-/
namespace StaticConfig.Eval

variable {keyVar : Option String} {valueVar name : String} {pair : Value × Value} {env env' : Env}

/-- What a round binds. -/
def boundItem (keyVar : Option String) (valueVar : String) (pair : Value × Value) : Env :=
  (valueVar, pair.2) :: keyVar.toList.map fun k => (k, pair.1)

theorem bindItem_eq : bindItem keyVar valueVar pair env = boundItem keyVar valueVar pair ++ env :=
  rfl

theorem lookup_eq_none_iff_not_mem_keys :
    env.lookup name = none ↔ name ∉ env.map Prod.fst := by
  rw [List.lookup_eq_none_iff, List.mem_map]
  constructor
  · intro h hmem
    obtain ⟨p, hp, rfl⟩ := hmem
    have hne := h p hp
    simp at hne
  · intro h p hp
    refine bne_iff_ne.2 fun hname => h ⟨p, hp, hname.symm⟩

theorem keys_boundItem :
    (boundItem keyVar valueVar pair).map Prod.fst = valueVar :: keyVar.toList := by
  cases keyVar <;> rfl

theorem lookup_boundItem_isSome (h : name ∈ valueVar :: keyVar.toList) :
    ((boundItem keyVar valueVar pair).lookup name).isSome := by
  rw [Option.isSome_iff_ne_none, Ne, lookup_eq_none_iff_not_mem_keys, keys_boundItem]
  exact not_not_intro h

theorem lookup_bindItem_of_mem (h : name ∈ valueVar :: keyVar.toList) :
    (bindItem keyVar valueVar pair env).lookup name =
      (boundItem keyVar valueVar pair).lookup name := by
  obtain ⟨v, hv⟩ := Option.isSome_iff_exists.1 (lookup_boundItem_isSome h)
  rw [bindItem_eq, List.lookup_append, hv]
  rfl

theorem lookup_bindItem_of_not_mem (h : name ∉ valueVar :: keyVar.toList) :
    (bindItem keyVar valueVar pair env).lookup name = env.lookup name := by
  have hnone : (boundItem keyVar valueVar pair).lookup name = none := by
    rw [lookup_eq_none_iff_not_mem_keys, keys_boundItem]
    exact h
  rw [bindItem_eq, List.lookup_append, hnone]
  rfl

/-- Names other than those in `bound` stand for what they stand for in the base. -/
def Around (bound : List String) (base env : Env) : Prop :=
  ∀ name ∉ bound, env.lookup name = base.lookup name

theorem Around.bindItem {bound : List String} {base : Env} (h : Around bound base env) :
    Around (References.bind bound keyVar valueVar) base (bindItem keyVar valueVar pair env) := by
  intro name hname
  have hitem : name ∉ valueVar :: keyVar.toList := fun hmem =>
    hname (List.mem_append_left bound hmem)
  have hbound : name ∉ bound := fun hmem => hname (List.mem_append_right _ hmem)
  rw [lookup_bindItem_of_not_mem hitem]
  exact h name hbound

/-!
Properties that the report of an evaluation has because the reports of its parts have them. The
evaluation may depend on a parameter, through its setting and through the form of its environment
but not through what the names stand for, and the property may be one of the dependence. The
induction over expressions is made here, once for all such properties.
-/

variable {ι α β : Type}

/-- The value that a failure leaves, and the diagnostic that tells of it. -/
def settled (r : Except EvalError Value) : Report Value :=
  match r with
  | .ok v => ⟨v, []⟩
  | .error e => ⟨.dynamic, [e.diagnostic]⟩

theorem settle_eq (m : Eval Value) : settle m = Report.bind m settled := by
  unfold settle Report.bind
  dsimp only
  split
  · rename_i v hv
    rw [hv]
    simp [settled]
  · rename_i e he
    rw [he]
    rfl

/-- The collection that a for expression makes of a value, given what it does for each entry. -/
def iterate (entry : Value × Value → Eval (Item × Bool)) (keyed group : Bool) (span keySpan : Span)
    (c : Value) : Eval Value :=
  match c.unmarked with
  | .null _ => fail span .nullIteration
  | .unknown _ => pure (Value.dynamic.markIf c.isMarked)
  | bare =>
    match bare.iterated? with
    | none => fail span (.notIterable bare.ty)
    | some pairs => do
      let (kept, marked) ← gather (!group) keySpan entry [] c.isMarked pairs
      match kept with
      | none => pure (Value.dynamic.markIf marked)
      | some kept => pure ((assemble keyed group kept).markIf marked)

theorem eval_forEach {s : Setting} {env : Env} {span : Span} {keyVar : Option String}
    {valueVar : String} {collection : Expr} {key : Option Expr} {value : Expr}
    {cond : Option Expr} {group : Bool} :
    eval s env (.forEach span keyVar valueVar collection key value cond group) = settle (do
      let c ← liftM (eval s env collection)
      iterate (forEntry s env keyVar valueVar key value cond) key.isSome group collection.span
        ((key.map Expr.span).getD span) c) := by
  rw [eval]
  rfl

/-! Forms of expressions that evaluate alike when their parts do. -/

theorem lastSpan_eq (span : Span) {args args' : List Expr}
    (h : args.map Expr.span = args'.map Expr.span) : lastSpan span args = lastSpan span args' := by
  rw [lastSpan, lastSpan, ← List.getLast?_map, ← List.getLast?_map, h]

/-- Templates that are not a lone interpolation. -/
theorem eval_template_congr {s s' : Setting} {env env' : Env} {span : Span}
    {parts parts' : List TemplatePart} (hparts : ∀ e, parts ≠ [.interp e])
    (hparts' : ∀ e, parts' ≠ [.interp e])
    (h : evalParts s env span parts = evalParts s' env' span parts') :
    eval s env (.template span parts) = eval s' env' (.template span parts') := by
  rw [eval, eval, h]
  · exact hparts'
  · exact hparts

theorem eval_forEach_congr {s s' : Setting} {env env' : Env} {span : Span}
    {keyVar : Option String} {valueVar : String} {collection collection' : Expr}
    {key key' : Option Expr} {value value' : Expr} {cond cond' : Option Expr} {group : Bool}
    (hcollection : eval s env collection = eval s' env' collection')
    (hspan : collection.span = collection'.span)
    (hkey : key.map Expr.span = key'.map Expr.span)
    (hentry : ∀ pair, forEntry s env keyVar valueVar key value cond pair =
      forEntry s' env' keyVar valueVar key' value' cond' pair) :
    eval s env (.forEach span keyVar valueVar collection key value cond group) =
      eval s' env' (.forEach span keyVar valueVar collection' key' value' cond' group) := by
  have hsome : key.isSome = key'.isSome := by
    rw [← Option.isSome_map (f := Expr.span), hkey, Option.isSome_map]
  rw [eval_forEach, eval_forEach, hcollection, funext hentry, hspan, hkey, hsome]

/-- Properties of reports that depend on a parameter, for results of each type. -/
abbrev ReportProp (ι : Type) := (α : Type) → (ι → Report α) → Prop

/-- The property is passed on from the parts of an expression to the whole. -/
structure Compositional (s : ι → Setting) (R : ReportProp ι) : Prop where
  of_pure {α : Type} (a : α) : R α fun _ => pure a
  of_bind {α β : Type} {m : ι → Report α} {f : α → ι → Report β} :
    R α m → (∀ a, R β (f a)) → R β fun i => m i >>= fun a => f a i
  of_fault (e : EvalError) : R Value fun _ => ⟨.dynamic, [e.diagnostic]⟩
  of_branch {yes no : ι → Report Value} (cond : Value) (condSpan span : Span) :
    R Value yes → R Value no →
      R (Except EvalError Value) fun i => chooseBranch cond condSpan span (yes i) (no i)
  of_call (name : String) (vs : List Value) (span : Span) :
    R (Except EvalError Value) fun i => ofExcept (callNamed (s i) name vs span)

/-- In all the environments the names stand for the same values. -/
def Uniform (env : ι → Env) : Prop :=
  ∃ base : Env, ∀ i name, (env i).lookup name = base.lookup name

theorem Uniform.bindItem {env : ι → Env} (h : Uniform env) (keyVar : Option String)
    (valueVar : String) (pair : Value × Value) :
    Uniform fun i => bindItem keyVar valueVar pair (env i) := by
  obtain ⟨base, hbase⟩ := h
  refine ⟨Eval.bindItem keyVar valueVar pair base, fun i name => ?_⟩
  simp only [bindItem_eq, List.lookup_append, hbase]

/-- The property of a computation that may fail. -/
def Holds (R : ReportProp ι) (m : ι → Eval α) : Prop := R (Except EvalError α) m

namespace Compositional

variable {s : ι → Setting} {R : ReportProp ι}

theorem holds_pure (h : Compositional s R) (a : α) : Holds R fun _ => (pure a : Eval α) :=
  h.of_pure (Except.ok a)

theorem holds_fail (h : Compositional s R) (span : Span) (fault : EvalFault) :
    Holds R fun _ => (fail span fault : Eval α) :=
  h.of_pure (Except.error ⟨span, fault⟩ : Except EvalError α)

theorem holds_ofExcept (h : Compositional s R) (r : Except EvalError α) :
    Holds R fun _ => ofExcept r := by
  cases r with
  | ok a => exact h.holds_pure a
  | error e => exact h.holds_fail e.span e.fault

theorem holds_report (h : Compositional s R) {m : ι → Report α} (hm : R α m) :
    Holds R fun i => (liftM (m i) : Eval α) :=
  h.of_bind hm fun a => h.holds_pure a

theorem holds_bind (h : Compositional s R) {m : ι → Eval α} {f : α → ι → Eval β} (hm : Holds R m)
    (hf : ∀ a, Holds R (f a)) : Holds R fun i => m i >>= fun a => f a i := by
  have hnext (r : Except EvalError α) :
      R (Except EvalError β) fun i => ExceptT.bindCont (fun a => f a i) r := by
    cases r with
    | ok a => exact hf a
    | error e => exact h.holds_fail e.span e.fault
  exact h.of_bind hm hnext

/-- A check made first. -/
theorem holds_refused (h : Compositional s R) {refused : Prop} [Decidable refused] (span : Span)
    (fault : EvalFault) {m : ι → Eval α} (hm : Holds R m) :
    Holds R fun i => if refused then (fail span fault : Eval PUnit) >>= fun _ => m i else m i := by
  by_cases hrefused : refused
  · simp only [hrefused, if_true]
    exact h.holds_bind (h.holds_fail span fault) fun _ => hm
  · simp only [hrefused, if_false]
    exact hm

theorem of_settle (h : Compositional s R) {m : ι → Eval Value} (hm : Holds R m) :
    R Value fun i => settle (m i) := by
  simp only [settle_eq]
  refine h.of_bind hm fun r => ?_
  cases r with
  | ok v => exact h.of_pure v
  | error e => exact h.of_fault e

theorem holds_gather (h : Compositional s R) {unique : Bool} {keySpan : Span}
    {round : ι → Value × Value → Eval (Item × Bool)}
    (hround : ∀ pair, Holds R fun i => round i pair) (pairs : List (Value × Value)) :
    ∀ kept marked, Holds R fun i => gather unique keySpan (round i) kept marked pairs := by
  induction pairs with
  | nil => exact fun kept marked => h.holds_pure _
  | cons pair pairs ih =>
    intro kept marked
    refine h.holds_bind (hround pair) fun (item, m) => ?_
    cases item with
    | skip => exact ih _ _
    | unknown => exact h.holds_pure _
    | keep key value =>
      cases key with
      | none => exact ih _ _
      | some k =>
        by_cases hdup : unique && kept.any fun other => other.1 == some k
        · simp only [hdup, if_true]
          exact h.holds_fail _ _
        · simp only [hdup]
          exact ih _ _

theorem holds_forEntry (h : Compositional s R) {env : ι → Env} (henv : Uniform env)
    {keyVar : Option String} {valueVar : String} {key : Option Expr} {value : Expr}
    {cond : Option Expr}
    (hcond : ∀ {env : ι → Env}, Uniform env → Holds R fun i => evalFilter (s i) (env i) cond)
    (hkey : ∀ {env : ι → Env}, Uniform env → Holds R fun i => evalKey (s i) (env i) key)
    (hvalue : ∀ {env : ι → Env}, Uniform env → R Value fun i => eval (s i) (env i) value)
    (pair : Value × Value) :
    Holds R fun i => forEntry (s i) (env i) keyVar valueVar key value cond pair := by
  have hitem := henv.bindItem keyVar valueVar pair
  refine h.holds_bind (hcond hitem) fun (decision, m) => ?_
  rcases decision with _ | _ | _
  · exact h.holds_pure _
  · exact h.holds_pure _
  · refine h.holds_bind (hkey hitem) fun (text, n) => ?_
    cases text with
    | none => exact h.holds_pure _
    | some text => exact h.holds_bind (h.holds_report (hvalue hitem)) fun _ => h.holds_pure _

theorem holds_iterate (h : Compositional s R) {entry : ι → Value × Value → Eval (Item × Bool)}
    (hentry : ∀ pair, Holds R fun i => entry i pair) (keyed group : Bool) (span keySpan : Span)
    (c : Value) : Holds R fun i => iterate (entry i) keyed group span keySpan c := by
  unfold iterate
  split
  · exact h.holds_fail _ _
  · exact h.holds_pure _
  · split
    · exact h.holds_fail _ _
    · refine h.holds_bind (h.holds_gather hentry _ _ _) fun gathered => ?_
      obtain ⟨kept, marked⟩ := gathered
      cases kept with
      | none => exact h.holds_pure _
      | some kept => exact h.holds_pure _

mutual

theorem of_eval (h : Compositional s R) {env : ι → Env} (henv : Uniform env) :
    ∀ e : Expr, R Value fun i => eval (s i) (env i) e
  | .literal _ v => h.of_settle (h.holds_pure v)
  | .parens _ inner => h.of_settle (h.holds_report (of_eval h henv inner))
  -- Only a lone interpolation is not put together from parts.
  | .template _ [.interp inner] => h.of_settle (h.holds_report (of_eval h henv inner))
  | .template span [] =>
    h.of_settle (h.holds_bind (holds_evalParts h henv span []) fun _ => h.holds_pure _)
  | .template span (.text text :: parts) =>
    h.of_settle (h.holds_bind (holds_evalParts h henv span (.text text :: parts)) fun _ =>
      h.holds_pure _)
  | .template span (.interp inner :: part :: parts) =>
    h.of_settle (h.holds_bind (holds_evalParts h henv span (.interp inner :: part :: parts))
      fun _ => h.holds_pure _)
  | .traversal span root steps => by
    obtain ⟨base, hbase⟩ := henv
    simp only [eval, hbase]
    refine h.of_settle ?_
    cases base.lookup root with
    | some v => exact h.holds_ofExcept _
    | none => exact h.holds_fail _ _
  | .relative _ source steps =>
    h.of_settle (h.holds_bind (h.holds_report (of_eval h henv source)) fun _ => h.holds_ofExcept _)
  | .index _ collection key =>
    h.of_settle (h.holds_bind (h.holds_report (of_eval h henv collection)) fun _ =>
      h.holds_bind (h.holds_report (of_eval h henv key)) fun _ => h.holds_ofExcept _)
  | .splat _ source each =>
    h.of_settle (h.holds_bind (h.holds_report (of_eval h henv source)) fun _ => h.holds_ofExcept _)
  | .tuple _ items =>
    h.of_settle (h.holds_bind (h.holds_report (of_evalAll h henv items)) fun _ => h.holds_pure _)
  | .object _ items =>
    h.of_settle (h.holds_bind (holds_evalItems h henv items []) fun _ => h.holds_pure _)
  | .call span name args expand => by
    simp only [eval]
    refine h.of_settle (h.holds_bind (h.holds_report (of_evalAll h henv args)) fun vs => ?_)
    cases expand with
    | false => exact h.of_call name vs span
    | true =>
      refine h.holds_bind (h.holds_ofExcept _) fun found => ?_
      cases found with
      | none => exact h.holds_pure _
      | some vs => exact h.of_call name vs span
  | .unary _ op operand =>
    h.of_settle (h.holds_bind (h.holds_report (of_eval h henv operand)) fun _ =>
      h.holds_bind (h.holds_ofExcept _) fun _ => h.holds_pure _)
  | .binary _ op lhs rhs =>
    h.of_settle (h.holds_bind (h.holds_report (of_eval h henv lhs)) fun _ =>
      h.holds_bind (h.holds_report (of_eval h henv rhs)) fun _ =>
        h.holds_bind (h.holds_ofExcept _) fun _ => h.holds_pure _)
  | .conditional _ cond yes no =>
    h.of_settle (h.holds_bind (h.holds_report (of_eval h henv cond)) fun c =>
      h.of_branch c _ _ (of_eval h henv yes) (of_eval h henv no))
  | .forEach span keyVar valueVar collection key value cond group => by
    simp only [eval_forEach]
    refine h.of_settle (h.holds_bind (h.holds_report (of_eval h henv collection)) fun c => ?_)
    refine h.holds_iterate (h.holds_forEntry henv ?_ ?_ ?_) _ _ _ _ c
    · exact fun henv => holds_evalFilter h henv cond
    · exact fun henv => holds_evalKey h henv key
    · exact fun henv => of_eval h henv value

theorem of_evalAll (h : Compositional s R) {env : ι → Env} (henv : Uniform env) :
    ∀ es : List Expr, R (List Value) fun i => evalAll (s i) (env i) es
  | [] => h.of_pure _
  | e :: es =>
    h.of_bind (of_eval h henv e) fun _ => h.of_bind (of_evalAll h henv es) fun _ => h.of_pure _

theorem holds_evalParts (h : Compositional s R) {env : ι → Env} (henv : Uniform env) (span : Span) :
    ∀ parts : List TemplatePart, Holds R fun i => evalParts (s i) (env i) span parts
  | [] => h.holds_pure _
  | .text _ :: parts => h.holds_bind (holds_evalParts h henv span parts) fun _ => h.holds_pure _
  | .interp e :: parts =>
    h.holds_bind (h.holds_report (of_eval h henv e)) fun _ =>
      h.holds_bind (h.holds_ofExcept _) fun _ =>
        h.holds_bind (holds_evalParts h henv span parts) fun _ => h.holds_pure _

theorem holds_evalItems (h : Compositional s R) {env : ι → Env} (henv : Uniform env) :
    ∀ (items : List (ObjectKey × Expr)) (attrs : Fields Value),
      Holds R fun i => evalItems (s i) (env i) attrs items
  | [], _ => h.holds_pure _
  | (.name _ _, value) :: items, _ =>
    h.holds_bind (h.holds_report (of_eval h henv value)) fun _ => holds_evalItems h henv items _
  | (.expr key, value) :: items, attrs => by
    refine h.holds_bind (h.holds_report (of_eval h henv key)) fun k => ?_
    refine h.holds_bind (h.holds_ofExcept _) fun name => ?_
    cases name with
    | none => exact h.holds_bind (holds_evalItems h henv items _) fun _ => h.holds_pure _
    | some name =>
      exact h.holds_bind (h.holds_report (of_eval h henv value)) fun _ =>
        h.holds_bind (holds_evalItems h henv items _) fun _ => h.holds_pure _

theorem holds_evalFilter (h : Compositional s R) {env : ι → Env} (henv : Uniform env) :
    ∀ cond : Option Expr, Holds R fun i => evalFilter (s i) (env i) cond
  | none => h.holds_pure _
  | some cond => by
    refine h.holds_bind (h.holds_report (of_eval h henv cond)) fun c => ?_
    refine h.holds_refused _ _ ?_
    cases truth c.bare with
    | ok decision => exact h.holds_pure _
    | error e => exact h.holds_fail _ _

theorem holds_evalKey (h : Compositional s R) {env : ι → Env} (henv : Uniform env) :
    ∀ key : Option Expr, Holds R fun i => evalKey (s i) (env i) key
  | none => h.holds_pure _
  | some key =>
    h.holds_bind (h.holds_report (of_eval h henv key)) fun _ =>
      h.holds_bind (h.holds_ofExcept _) fun _ => h.holds_pure _

end

end Compositional

end StaticConfig.Eval
