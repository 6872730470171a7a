import StaticConfig.Proofs.Evaluation.Faults

/-!
The errors that an evaluation can raise. Every diagnostic of an evaluation tells one of them: one
that comes of values alone, or one that tells what is written in a part of the expression, evaluated
where the names stand for what they stand for at this part.
-/
namespace StaticConfig

namespace Expr

/-- The steps that are written in the expression itself. -/
def steps : Expr → List Step
  | traversal _ _ steps | relative _ _ steps | splat _ _ steps => steps
  | _ => []

/-- The expression is a text, whatever its parts are. A lone interpolation can be anything. -/
def isText : Expr → Bool
  | template _ [.interp _] => false
  | template _ _ => true
  | _ => false

end Expr

namespace Eval

/-- A part right inside of an expression, and where it is evaluated. -/
inductive Inner (env : Env) : Expr → Env → Expr → Prop
  | parens {span inner} : Inner env (.parens span inner) env inner
  | related {span source steps} : Inner env (.relative span source steps) env source
  | splatted {span source each} : Inner env (.splat span source each) env source
  | indexed {span collection key} : Inner env (.index span collection key) env collection
  | index {span collection key} : Inner env (.index span collection key) env key
  | operand {span op operand} : Inner env (.unary span op operand) env operand
  | lhs {span op lhs rhs} : Inner env (.binary span op lhs rhs) env lhs
  | rhs {span op lhs rhs} : Inner env (.binary span op lhs rhs) env rhs
  | cond {span cond yes no} : Inner env (.conditional span cond yes no) env cond
  | yes {span cond yes no} : Inner env (.conditional span cond yes no) env yes
  | no {span cond yes no} : Inner env (.conditional span cond yes no) env no
  | item {span items e} (h : e ∈ items) : Inner env (.tuple span items) env e
  | key {span items key value} (h : (.expr key, value) ∈ items) :
      Inner env (.object span items) env key
  | value {span items key value} (h : (key, value) ∈ items) :
      Inner env (.object span items) env value
  | arg {span name args expand e} (h : e ∈ args) : Inner env (.call span name args expand) env e
  | interp {span parts e} (h : .interp e ∈ parts) : Inner env (.template span parts) env e
  | collection {span keyVar valueVar collection key value cond group} :
      Inner env (.forEach span keyVar valueVar collection key value cond group) env collection
  | filter {span keyVar valueVar collection key value cond group} (pair : Value × Value) :
      Inner env (.forEach span keyVar valueVar collection key value (some cond) group)
        (bindItem keyVar valueVar pair env) cond
  | itemKey {span keyVar valueVar collection key value cond group} (pair : Value × Value) :
      Inner env (.forEach span keyVar valueVar collection (some key) value cond group)
        (bindItem keyVar valueVar pair env) key
  | itemValue {span keyVar valueVar collection key value cond group} (pair : Value × Value) :
      Inner env (.forEach span keyVar valueVar collection key value cond group)
        (bindItem keyVar valueVar pair env) value

/-- An error that tells what is written in the expression itself. Any expression but a text may be
null where it is interpolated. -/
inductive Written (env : Env) : Expr → EvalError → Prop
  | name {span root steps} (h : env.lookup root = none) :
      Written env (.traversal span root steps) ⟨span, .unknownVariable root⟩
  | member {e span name} (h : .attr span name ∈ e.steps) :
      Written env e ⟨span, .noMapElement name⟩
  | function {span name args expand} :
      Written env (.call span name args expand) ⟨span, .unknownFunction name⟩
  | operation {span op lhs rhs e} (h : op.failure? = some e) :
      Written env (.binary span op lhs rhs) ⟨span, .failedOperation e⟩
  | text {e} (h : e.isText = true) : Written env e ⟨e.span, .wrongInterpolation .textRequired⟩
  | interpolated {e} (h : e.isText = false) : Written env e ⟨e.span, .nullInterpolation⟩

/-- The evaluation of the expression may raise the error. -/
inductive Raised : Env → Expr → EvalError → Prop
  | ofValue {env e span fault} (h : fault.ofValue = true) : Raised env e ⟨span, fault⟩
  | written {env e err} (h : Written env e err) : Raised env e err
  | inner {env e env' e' err} (h : Inner env e env' e') (hr : Raised env' e' err) : Raised env e err

variable {α : Type} {s : Setting} {env : Env}

theorem admits_raised (env : Env) (e : Expr) : Admits (Raised env e) := .ofValue

theorem admitsSteps_raised (env : Env) (e : Expr) : AdmitsSteps (Raised env e) e.steps :=
  fun _ _ h => .written (.member h)

theorem Only.inner {e e' : Expr} {env' : Env} {r : Report α} (h : Inner env e env' e')
    (hr : Only (Tells (Raised env' e')) r) : Only (Tells (Raised env e)) r :=
  hr.tells_mono fun _ => .inner h

theorem raises_inner {e e' : Expr} {env' : Env} {r : Report α} (h : Inner env e env' e')
    (hr : Only (Tells (Raised env' e')) r) : Raises (Raised env e) (liftM r) :=
  raises_report (hr.inner h)

/-! Texts are not null. -/

theorem result_settle_bind {P : Value → Prop} (hunknown : P .dynamic) {m : Eval α}
    {f : α → Eval Value} (hf : ∀ a, P (settle (f a)).result) : P (settle (m >>= f)).result := by
  obtain ⟨result, diags⟩ := m
  cases result with
  | error e => exact hunknown
  | ok a =>
    have ha := hf a
    rw [settle_eq] at ha ⊢
    exact ha

theorem isNull_of_isText {e : Expr} (h : e.isText = true) :
    (eval s env e).result.bare.isNull = false := by
  have hjoined {m : Eval (Option String × Bool)} {f : Option String × Bool → Eval Value}
      (hsome : ∀ text marked, f (some text, marked) = pure ((Value.string text).markIf marked))
      (hnone : ∀ marked, f (none, marked) = pure ((Value.unknown .string).markIf marked)) :
      (settle (m >>= f)).result.bare.isNull = false := by
    refine result_settle_bind (P := fun v => v.bare.isNull = false) rfl fun joined => ?_
    obtain ⟨text, marked⟩ := joined
    cases text with
    | some text =>
      rw [hsome]
      cases marked <;> rfl
    | none =>
      rw [hnone]
      cases marked <;> rfl
  cases e with
  | template span parts =>
    cases parts with
    | nil => exact hjoined (fun _ _ => rfl) fun _ => rfl
    | cons part parts =>
      cases part with
      | text text => exact hjoined (fun _ _ => rfl) fun _ => rfl
      | interp inner =>
        cases parts with
        | nil => cases h
        | cons part parts => exact hjoined (fun _ _ => rfl) fun _ => rfl
  | _ => cases h

/-! The errors of an evaluation. -/

mutual

/-- Every diagnostic of an evaluation tells an error that the evaluation may raise. -/
theorem tells_eval : ∀ (e : Expr) (env : Env), Only (Tells (Raised env e)) (eval s env e)
  | .literal _ v, _ => only_settle (raises_pure v)
  | .traversal span root steps, env => by
    rw [eval]
    refine only_settle ?_
    cases hroot : env.lookup root with
    | some v =>
      exact raises_ofExcept (fails_steps (admits_raised env _) (admitsSteps_raised env _) v)
    | none => exact ⟨only_pure _, fails_error (.written (.name hroot))⟩
  | .parens _ inner, env => only_settle (raises_inner .parens (tells_eval inner env))
  | .relative _ source steps, env =>
    only_settle (raises_bind (raises_inner .related (tells_eval source env)) fun v =>
      raises_ofExcept (fails_steps (admits_raised env _) (admitsSteps_raised env _) v))
  | .splat _ source each, env =>
    only_settle (raises_bind (raises_inner .splatted (tells_eval source env)) fun v =>
      raises_ofExcept (fails_splat (admits_raised env _) (admitsSteps_raised env _) v))
  | .index span collection key, env =>
    only_settle (raises_bind (raises_inner .indexed (tells_eval collection env)) fun c =>
      raises_bind (raises_inner .index (tells_eval key env)) fun k =>
        raises_ofExcept (fails_element (admits_raised env _) c k span))
  | .unary span op operand, env =>
    only_settle (raises_bind (raises_inner .operand (tells_eval operand env)) fun v =>
      raises_bind (raises_ofExcept (fails_unary (admits_raised env _) op _ span)) fun _ =>
        raises_pure _)
  | .binary span op lhs rhs, env =>
    only_settle (raises_bind (raises_inner .lhs (tells_eval lhs env)) fun l =>
      raises_bind (raises_inner .rhs (tells_eval rhs env)) fun r =>
        raises_bind (raises_ofExcept (fails_binary (admits_raised env _)
          (fun _ h => .written (.operation h)) _ _ _ _)) fun _ => raises_pure _)
  | .conditional span cond yes no, env =>
    only_settle (raises_bind (raises_inner .cond (tells_eval cond env)) fun c =>
      raises_chooseBranch (admits_raised env _) c cond.span span ((tells_eval yes env).inner .yes)
        ((tells_eval no env).inner .no))
  | .tuple _ items, env =>
    only_settle (raises_bind (raises_report (tells_evalAll items fun _ h _ => .inner (.item h)))
      fun _ => raises_pure _)
  | .object _ items, env =>
    only_settle (raises_bind (raises_evalItems (admits_raised env _) items
      (fun _ _ h _ => .inner (.key h)) (fun _ _ h _ => .inner (.value h)) _) fun _ =>
        raises_pure _)
  | .call span name args expand, env => by
    have hcall (vs : List Value) : Raises (Raised env (.call span name args expand))
        (ofExcept (callNamed s name vs span)) :=
      raises_ofExcept (fails_callNamed (admits_raised env _) (.written .function) s vs)
    rw [eval]
    refine only_settle (raises_bind (raises_report (tells_evalAll args fun _ h _ =>
      .inner (.arg h))) fun vs => ?_)
    cases expand with
    | false => exact hcall vs
    | true =>
      refine raises_bind (raises_ofExcept (fails_expandLast (admits_raised env _) _ vs))
        fun found => ?_
      cases found with
      | none => exact raises_pure _
      | some vs => exact hcall vs
  -- A lone interpolation is evaluated differently.
  | .template _ [.interp inner], env =>
    only_settle (raises_inner (.interp List.mem_cons_self) (tells_eval inner env))
  | .template span [], env =>
    only_settle (raises_bind (raises_evalParts (.written (.text rfl)) []
      (fun _ h _ => .inner (.interp h))) fun _ => raises_pure _)
  | .template span (.text text :: parts), env =>
    only_settle (raises_bind (raises_evalParts (.written (.text rfl)) (.text text :: parts)
      (fun _ h _ => .inner (.interp h))) fun _ => raises_pure _)
  | .template span (.interp inner :: part :: parts), env =>
    only_settle (raises_bind (raises_evalParts (.written (.text rfl))
      (.interp inner :: part :: parts) (fun _ h _ => .inner (.interp h))) fun _ => raises_pure _)
  | .forEach span keyVar valueVar collection key value cond group, env => by
    rw [eval_forEach]
    refine only_settle (raises_bind (raises_inner .collection (tells_eval collection env))
      fun c => ?_)
    refine raises_iterate (admits_raised env _) (fun pair => ?_) _ _ _ _ c
    refine raises_bind (raises_evalFilter (admits_raised env _) cond ?_) fun (decision, m) => ?_
    · rintro cond rfl _ h
      exact .inner (.filter pair) h
    rcases decision with _ | _ | _
    · exact raises_pure _
    · exact raises_pure _
    · refine raises_bind (raises_evalKey (admits_raised env _) key ?_) fun (text, n) => ?_
      · rintro key rfl _ h
        exact .inner (.itemKey pair) h
      cases text with
      | none => exact raises_pure _
      | some text =>
        exact raises_bind (raises_inner (.itemValue pair) (tells_eval value _)) fun _ =>
          raises_pure _

theorem tells_evalAll {Q : EvalError → Prop} : ∀ (es : List Expr) {env : Env},
    (∀ e ∈ es, ∀ err, Raised env e err → Q err) → Only (Tells Q) (evalAll s env es)
  | [], _, _ => only_pure _
  | e :: es, env, h => by
    obtain ⟨he, hes⟩ := List.forall_mem_cons.1 h
    exact only_bind ((tells_eval e env).tells_mono he) fun _ =>
      only_bind (tells_evalAll es hes) fun _ => only_pure _

theorem raises_evalParts {Q : EvalError → Prop} {span : Span}
    (hwrong : Q ⟨span, .wrongInterpolation .textRequired⟩) : ∀ (parts : List TemplatePart)
    {env : Env}, (∀ e, .interp e ∈ parts → ∀ err, Raised env e err → Q err) →
      Raises Q (evalParts s env span parts)
  | [], _, _ => raises_pure _
  | .text _ :: parts, _, h =>
    raises_bind (raises_evalParts hwrong parts fun e he => h e (List.mem_cons_of_mem _ he))
      fun _ => raises_pure _
  | .interp e :: parts, env, h => by
    have he := h e List.mem_cons_self
    refine raises_bind_of (raises_report ((tells_eval e env).tells_mono he)) fun v hv => ?_
    refine raises_bind (raises_ofExcept (fails_interpolated (fun hnull => ?_) hwrong)) fun _ =>
      raises_bind (raises_evalParts hwrong parts fun e he => h e (List.mem_cons_of_mem _ he))
        fun _ => raises_pure _
    cases htext : e.isText with
    | false => exact he _ (.written (.interpolated htext))
    | true =>
      have hv : v = (eval s env e).result := (Except.ok.inj hv).symm
      rw [hv, isNull_of_isText htext] at hnull
      cases hnull

theorem raises_evalItems {Q : EvalError → Prop} (hQ : Admits Q) :
    ∀ (items : List (ObjectKey × Expr)) {env : Env},
      (∀ key value, (.expr key, value) ∈ items → ∀ err, Raised env key err → Q err) →
      (∀ key value, (key, value) ∈ items → ∀ err, Raised env value err → Q err) →
      ∀ attrs : Fields Value, Raises Q (evalItems s env attrs items)
  | [], _, _, _, _ => raises_pure _
  | (.name _ _, value) :: items, env, hkeys, hvalues, _ =>
    raises_bind (raises_report ((tells_eval value env).tells_mono
      (hvalues _ value List.mem_cons_self))) fun _ =>
        raises_evalItems hQ items (fun k v h => hkeys k v (List.mem_cons_of_mem _ h))
          (fun k v h => hvalues k v (List.mem_cons_of_mem _ h)) _
  | (.expr key, value) :: items, env, hkeys, hvalues, attrs => by
    have hrest (attrs : Fields Value) : Raises Q (evalItems s env attrs items) :=
      raises_evalItems hQ items (fun k v h => hkeys k v (List.mem_cons_of_mem _ h))
        (fun k v h => hvalues k v (List.mem_cons_of_mem _ h)) attrs
    refine raises_bind (raises_report ((tells_eval key env).tells_mono
      (hkeys key value List.mem_cons_self))) fun k => ?_
    refine raises_bind (raises_ofExcept (fails_keyText _ (hQ rfl) (hQ rfl))) fun name => ?_
    cases name with
    | none => exact raises_bind (hrest _) fun _ => raises_pure _
    | some name =>
      exact raises_bind (raises_report ((tells_eval value env).tells_mono
        (hvalues _ value List.mem_cons_self))) fun _ =>
          raises_bind (hrest _) fun _ => raises_pure _

theorem raises_evalFilter {Q : EvalError → Prop} (hQ : Admits Q) : ∀ (cond : Option Expr)
    {env : Env}, (∀ e, cond = some e → ∀ err, Raised env e err → Q err) →
      Raises Q (evalFilter s env cond)
  | none, _, _ => raises_pure _
  | some cond, env, h => by
    refine raises_bind (raises_report ((tells_eval cond env).tells_mono (h cond rfl)))
      fun c => ?_
    refine raises_refused hQ ?_ ?_
    · rfl
    cases truth c.bare with
    | ok decision => exact raises_pure _
    | error e => exact hQ.raises rfl

theorem raises_evalKey {Q : EvalError → Prop} (hQ : Admits Q) : ∀ (key : Option Expr) {env : Env},
    (∀ e, key = some e → ∀ err, Raised env e err → Q err) → Raises Q (evalKey s env key)
  | none, _, _ => raises_pure _
  | some key, env, h =>
    raises_bind (raises_report ((tells_eval key env).tells_mono (h key rfl))) fun _ =>
      raises_bind (raises_ofExcept (fails_keyText _ (hQ rfl) (hQ rfl))) fun _ => raises_pure _

end

/-- What evaluation reports is a failure to evaluate. -/
theorem kind_of_mem_diags {e : Expr} {d : Diagnostic} (h : d ∈ (eval s env e).diags) :
    d.kind = .evaluation := by
  obtain ⟨err, -, rfl⟩ := tells_eval e env d h
  rfl

end Eval

end StaticConfig
