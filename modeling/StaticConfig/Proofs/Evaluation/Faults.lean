import StaticConfig.Proofs.Evaluation.Compositional

/-!
The errors of the operations on values. Most faults come of the values alone. The others tell of
what is written at their range: a name, a member, a function, an operator or a template. Each
operation fails with errors of a given class if the class has all faults that come of values, and
those that the operation tells of what is written.
-/
namespace StaticConfig

/-- Nothing but a text was wanted. -/
def ConversionError.textRequired : ConversionError := .ofFault (.required .string)

/-- The fault comes of the values alone, and not of what is written at its range. -/
def EvalFault.ofValue : EvalFault → Bool
  | unknownVariable _ | noMapElement _ | unknownFunction _ | failedOperation _
  | nullInterpolation | wrongInterpolation _ => false
  | wrongObjectKey e => e = .textRequired
  | _ => true

/-- How the operator can fail on two numbers. -/
def BinaryOp.failure? : BinaryOp → Option NumberError
  | div => some .divisionByZero
  | mod => some .modulusByZero
  | _ => none

namespace Eval

variable {α β : Type} {Q : EvalError → Prop}

/-- The class has all errors that come of values alone. -/
def Admits (Q : EvalError → Prop) : Prop :=
  ∀ {span : Span} {fault : EvalFault}, fault.ofValue = true → Q ⟨span, fault⟩

/-- A failure is of the class. -/
def Fails (Q : EvalError → Prop) (x : Except EvalError α) : Prop := ∀ e, x = .error e → Q e

theorem fails_ok (a : α) : Fails Q (.ok a : Except EvalError α) := nofun

theorem fails_error {e : EvalError} (h : Q e) : Fails Q (.error e : Except EvalError α) := by
  intro e' he
  cases he
  exact h

theorem Admits.fails (hQ : Admits Q) {span : Span} {fault : EvalFault}
    (h : fault.ofValue = true) : Fails Q (.error ⟨span, fault⟩ : Except EvalError α) :=
  fails_error (hQ h)

theorem fails_bind {x : Except EvalError α} {f : α → Except EvalError β} (hx : Fails Q x)
    (hf : ∀ a, Fails Q (f a)) : Fails Q (x >>= f) := by
  cases x with
  | ok a => exact hf a
  | error e => exact fails_error (hx e rfl)

theorem fails_map {x : Except EvalError α} (f : α → β) (hx : Fails Q x) : Fails Q (x.map f) := by
  cases x with
  | ok a => exact fails_ok _
  | error e => exact fails_error (hx e rfl)

theorem fails_ite {c : Prop} [Decidable c] {x y : Except EvalError α} (hx : Fails Q x)
    (hy : Fails Q y) : Fails Q (if c then x else y) := by
  split
  · exact hx
  · exact hy

/-! Taking values apart. -/

/-- The class has what the steps tell of the members that they name. -/
def AdmitsSteps (Q : EvalError → Prop) (steps : List Step) : Prop :=
  ∀ span name, .attr span name ∈ steps → Q ⟨span, .noMapElement name⟩

theorem fails_attr (hQ : Admits Q) {name : String} {span : Span}
    (hmember : Q ⟨span, .noMapElement name⟩) (v : Value) : Fails Q (v.attr name span) := by
  refine fails_map _ ?_
  unfold Value.bareAttr
  split
  · exact hQ.fails rfl
  · exact fails_ok _
  · exact fails_ok _
  · exact fails_ok _
  · split
    · exact fails_ok _
    · exact hQ.fails rfl
  · split
    · exact fails_ok _
    · exact fails_error hmember
  · exact hQ.fails rfl
  · exact hQ.fails rfl
  · exact hQ.fails rfl
  · exact hQ.fails rfl

theorem fails_found (hQ : Admits Q) (o : Option Value) (span : Span) :
    Fails Q (match o with
      | some v => .ok v
      | none => .error ⟨span, .noElement⟩ : Evaluated) := by
  cases o with
  | some v => exact fails_ok v
  | none => exact hQ.fails rfl

theorem fails_element (hQ : Admits Q) (v key : Value) (span : Span) :
    Fails Q (v.element key span) := by
  refine fails_map _ (fails_ite (hQ.fails rfl) ?_)
  split
  · exact hQ.fails rfl
  · exact fails_ok _
  · exact hQ.fails rfl
  · refine fails_ite (fails_ok _) ?_
    split
    · exact fails_found hQ _ span
    · exact fails_found hQ _ span
    · exact hQ.fails rfl

theorem fails_steps (hQ : Admits Q) {steps : List Step} (hsteps : AdmitsSteps Q steps) :
    ∀ v : Value, Fails Q (v.steps steps) := by
  induction steps with
  | nil => exact fails_ok
  | cons step steps ih =>
    intro v
    refine fails_bind ?_ (ih fun span name h => hsteps span name (List.mem_cons_of_mem _ h))
    cases step with
    | attr span name => exact fails_attr hQ (hsteps span name List.mem_cons_self) v
    | index span key => exact fails_element hQ v key span

theorem fails_stepsOfEach (hQ : Admits Q) {each : List Step} (heach : AdmitsSteps Q each)
    (vs : List Value) : Fails Q (Value.stepsOfEach each vs) := by
  induction vs with
  | nil => exact fails_ok _
  | cons v vs ih =>
    exact fails_bind (fails_steps hQ heach v) fun part => fails_bind ih fun parts => fails_ok _

theorem fails_splat (hQ : Admits Q) {each : List Step} (heach : AdmitsSteps Q each) (v : Value) :
    Fails Q (v.splat each) := by
  refine fails_map _ ?_
  unfold Value.bareSplat
  split
  · exact fails_ok _
  · exact fails_ok _
  · split
    · exact fails_map _ (fails_stepsOfEach hQ heach _)
    · exact fails_map _ (fails_steps hQ heach _)

/-! Operators. -/

/-- The class has what the operator tells of itself. -/
def AdmitsFailure (Q : EvalError → Prop) (span : Span) (op : BinaryOp) : Prop :=
  ∀ e, op.failure? = some e → Q ⟨span, .failedOperation e⟩

theorem fails_operand (hQ : Admits Q) (v : Value) (ty : Ty) (span : Span) (side : Side) :
    Fails Q (Operator.operand v ty span side) := by
  refine fails_ite (hQ.fails rfl) ?_
  split
  · exact fails_ok _
  · exact hQ.fails rfl

theorem fails_unary (hQ : Admits Q) (op : UnaryOp) (v : Value) (span : Span) :
    Fails Q (Operator.unary op v span) := by
  cases op with
  | neg =>
    refine fails_bind (fails_operand hQ v .number span .sole) fun v => ?_
    split
    · exact fails_ok _
    · exact fails_ok _
  | not =>
    refine fails_bind (fails_operand hQ v .bool span .sole) fun v => ?_
    split
    · exact fails_ok _
    · exact fails_ok _

theorem div_eq_error {a b : Number} {e : NumberError} (h : a.div b = .error e) :
    e = .divisionByZero := by
  unfold Number.div at h
  split at h
  · cases h
    rfl
  · split at h
    · dsimp only at h
      split at h
      · cases h
      · cases h
    · cases h

theorem mod_eq_error {a b : Number} {e : NumberError} (h : a.mod b = .error e) :
    e = .modulusByZero := by
  unfold Number.mod at h
  split at h
  · cases h
    rfl
  · split at h
    · cases h
    · cases h

theorem fails_computed (r : Except NumberError Number) (span : Span) :
    (∀ e, r = .error e → Q ⟨span, .failedOperation e⟩) →
    Fails Q (match r with
      | .ok n => .ok (.number n)
      | .error e => .error ⟨span, .failedOperation e⟩ : Evaluated) := by
  intro h
  cases r with
  | ok n => exact fails_ok _
  | error e => exact fails_error (h e rfl)

theorem fails_numeric {op : BinaryOp} {span : Span} (hop : AdmitsFailure Q span op)
    (a b : Number) : Fails Q (Operator.numeric op a b span) := by
  cases op with
  | div =>
    refine fails_computed _ span fun e he => hop e ?_
    rw [div_eq_error he]
    rfl
  | mod =>
    refine fails_computed _ span fun e he => hop e ?_
    rw [mod_eq_error he]
    rfl
  | _ => exact fails_ok _

theorem fails_arithmetic (hQ : Admits Q) {op : BinaryOp} {span : Span}
    (hop : AdmitsFailure Q span op) (l r : Value) (lspan rspan : Span) :
    Fails Q (do
      let l ← Operator.operand l .number lspan .left
      let r ← Operator.operand r .number rspan .right
      match l.number?, r.number? with
      | some a, some b => Operator.numeric op a b span
      | _, _ => .ok (.unknown (if Operator.isComparison op then .bool else .number))) := by
  refine fails_bind (fails_operand hQ l .number lspan .left) fun l => ?_
  refine fails_bind (fails_operand hQ r .number rspan .right) fun r => ?_
  split
  · exact fails_numeric hop _ _
  · exact fails_ok _

theorem fails_binary (hQ : Admits Q) {op : BinaryOp} {span : Span} (hop : AdmitsFailure Q span op)
    (l r : Value) (lspan rspan : Span) : Fails Q (Operator.binary op l r lspan rspan span) := by
  have hlogic (decide : Option Bool → Option Bool → Value) : Fails Q (do
      let l ← Operator.operand l .bool lspan .left
      let r ← Operator.operand r .bool rspan .right
      .ok (decide l.bool? r.bool?) : Evaluated) :=
    fails_bind (fails_operand hQ l .bool lspan .left) fun l =>
      fails_bind (fails_operand hQ r .bool rspan .right) fun r => fails_ok _
  cases op with
  | eq => exact fails_ok _
  | ne => exact fails_ok _
  | and => exact hlogic Operator.both
  | or => exact hlogic Operator.either
  | _ => exact fails_arithmetic hQ hop l r lspan rspan

/-! Texts, arguments and calls. -/

/-- What does not convert to a text is no text as a whole; no part of it is at fault. -/
theorem convert_string_eq_error (v : Value) {e : ConversionError}
    (h : v.convert .string = .error e) : e = .textRequired := by
  have hrequired : (.error (.ofFault (.required .string)) : Except ConversionError Value) =
      .error e → e = .textRequired := fun h => (Except.error.inj h).symm
  match v with
  | .sensitive inner =>
    refine convert_string_eq_error inner ?_
    rw [Value.convert] at h
    cases hinner : inner.convert .string with
    | ok w =>
      rw [hinner] at h
      cases h
    | error e' =>
      rw [hinner] at h
      cases h
      rfl
  | .null _ => cases h
  | .unknown t =>
    rw [Value.convert] at h
    split at h
    · cases h
    · split at h
      · cases h
      · exact hrequired h
  | .bool _ => cases h
  | .number _ => cases h
  | .string _ => cases h
  | .list _ _ => exact hrequired h
  | .set _ _ => exact hrequired h
  | .map _ _ => exact hrequired h
  | .tuple _ => exact hrequired h
  | .object _ => exact hrequired h

theorem fails_interpolated {v : Value} {place span : Span}
    (hnull : v.isNull = true → Q ⟨place, .nullInterpolation⟩)
    (hwrong : Q ⟨span, .wrongInterpolation .textRequired⟩) :
    Fails Q (interpolated v place span) := by
  unfold interpolated
  split
  · rename_i hv
    exact fails_error (hnull hv)
  · refine fails_ite (fails_ok _) ?_
    split
    · exact fails_ok _
    · rename_i e he
      rw [convert_string_eq_error v he]
      exact fails_error hwrong

theorem fails_keyText (v : Value) {span : Span} {null : EvalFault}
    {wrong : ConversionError → EvalFault} (hnull : Q ⟨span, null⟩)
    (hwrong : Q ⟨span, wrong .textRequired⟩) : Fails Q (keyText v span null wrong) := by
  refine fails_ite (fails_error hnull) (fails_ite (fails_ok _) ?_)
  split
  · exact fails_ok _
  · rename_i e he
    rw [convert_string_eq_error v he]
    exact fails_error hwrong

theorem fails_expandLast (hQ : Admits Q) (span : Span) (vs : List Value) :
    Fails Q (expandLast span vs) := by
  induction vs with
  | nil => exact fails_ok _
  | cons v vs ih =>
    cases vs with
    | nil =>
      unfold expandLast
      split
      · exact fails_ok _
      · exact fails_ok _
      · exact fails_ok _
      · exact fails_ok _
      · exact hQ.fails rfl
      · exact hQ.fails rfl
    | cons w ws =>
      refine fails_bind ih fun rest => ?_
      split
      · exact fails_ok _
      · exact fails_ok _

theorem fails_callNamed (hQ : Admits Q) {name : String} {span : Span}
    (hfunction : Q ⟨span, .unknownFunction name⟩) (s : Setting) (vs : List Value) :
    Fails Q (callNamed s name vs span) := by
  unfold callNamed
  split
  · exact fails_error hfunction
  · split
    · exact fails_ok _
    · exact hQ.fails rfl

/-! Computations. -/

/-- Every diagnostic of the report has the property. -/
def Only (P : Diagnostic → Prop) (r : Report α) : Prop := ∀ d ∈ r.diags, P d

theorem only_pure {P : Diagnostic → Prop} (a : α) : Only P (pure a : Report α) :=
  List.forall_mem_nil _

theorem only_bind {P : Diagnostic → Prop} {r : Report α} {f : α → Report β} (hr : Only P r)
    (hf : ∀ a, Only P (f a)) : Only P (r >>= f) := by
  intro d hd
  rw [Report.bind_eq] at hd
  rcases List.mem_append.1 hd with h | h
  · exact hr d h
  · exact hf _ d h

/-- The diagnostic tells an error of the class. -/
def Tells (Q : EvalError → Prop) (d : Diagnostic) : Prop := ∃ e, Q e ∧ e.diagnostic = d

theorem Only.tells_mono {Q' : EvalError → Prop} {r : Report α} (h : Only (Tells Q) r)
    (hmono : ∀ e, Q e → Q' e) : Only (Tells Q') r := by
  intro d hd
  obtain ⟨e, he, hde⟩ := h d hd
  exact ⟨e, hmono e he, hde⟩

/-- What the computation reports or fails with is of the class. -/
structure Raises (Q : EvalError → Prop) (m : Eval α) : Prop where
  reported : Only (Tells Q) (m : Report (Except EvalError α))
  fails : Fails Q (m : Report (Except EvalError α)).result

theorem raises_pure (a : α) : Raises Q (pure a) := ⟨only_pure _, fails_ok a⟩

theorem Admits.raises (hQ : Admits Q) {span : Span} {fault : EvalFault}
    (h : fault.ofValue = true) : Raises Q (fail span fault : Eval α) :=
  ⟨only_pure _, hQ.fails h⟩

theorem raises_ofExcept {x : Except EvalError α} (h : Fails Q x) : Raises Q (ofExcept x) := by
  cases x with
  | ok a => exact raises_pure a
  | error e => exact ⟨only_pure _, h⟩

theorem raises_report {r : Report α} (h : Only (Tells Q) r) : Raises Q (liftM r) :=
  ⟨only_bind h fun _ => only_pure _, fails_ok _⟩

/-- The rest of a computation counts for the value that it is given. -/
theorem raises_bind_of {m : Eval α} {f : α → Eval β} (hm : Raises Q m)
    (hf : ∀ a, (m : Report (Except EvalError α)).result = .ok a → Raises Q (f a)) :
    Raises Q (m >>= f) := by
  have hnext (r : Except EvalError α) (hr : Fails Q r) (hok : ∀ a, r = .ok a → Raises Q (f a)) :
      Raises Q (ExceptT.bindCont f r : Report (Except EvalError β)) := by
    cases r with
    | ok a => exact hok a rfl
    | error e => exact ⟨only_pure _, fails_error (hr e rfl)⟩
  have hrest := hnext (m : Report (Except EvalError α)).result hm.fails hf
  constructor
  · intro d hd
    rcases List.mem_append.1 hd with hd | hd
    · exact hm.reported d hd
    · exact hrest.reported d hd
  · exact hrest.fails

theorem raises_bind {m : Eval α} {f : α → Eval β} (hm : Raises Q m) (hf : ∀ a, Raises Q (f a)) :
    Raises Q (m >>= f) :=
  raises_bind_of hm fun a _ => hf a

/-- A check made first. -/
theorem raises_refused (hQ : Admits Q) {refused : Prop} [Decidable refused] {span : Span}
    {fault : EvalFault} (h : fault.ofValue = true) {m : Eval α} (hm : Raises Q m) :
    Raises Q (if refused then (fail span fault : Eval PUnit) >>= fun _ => m else m) := by
  split
  · exact raises_bind (hQ.raises h) fun _ => hm
  · exact hm

theorem raises_tell {ds : Diagnostics} (h : ∀ d ∈ ds, Tells Q d) : Raises Q (tell ds) := by
  have htell : Only (Tells Q) (Report.tell ds) := h
  exact raises_report htell

theorem only_settle {m : Eval Value} (h : Raises Q m) : Only (Tells Q) (settle m) := by
  intro d hd
  rw [settle_eq] at hd
  rcases List.mem_append.1 hd with hd | hd
  · exact h.reported d hd
  · cases hr : (m : Report (Except EvalError Value)).result with
    | ok v =>
      rw [hr] at hd
      cases hd
    | error e =>
      rw [hr] at hd
      rw [List.mem_singleton.1 hd]
      exact ⟨e, h.fails e hr, rfl⟩

theorem raises_chooseBranch (hQ : Admits Q) (cond : Value) (condSpan span : Span)
    {yes no : Report Value} (hyes : Only (Tells Q) yes) (hno : Only (Tells Q) no) :
    Raises Q (chooseBranch cond condSpan span yes no) := by
  have hboth : ∀ d ∈ yes.diags ++ no.diags, Tells Q d := List.forall_mem_append.2 ⟨hyes, hno⟩
  unfold chooseBranch
  refine raises_refused hQ ?_ ?_
  · rfl
  split
  · exact hQ.raises rfl
  · split
    · exact raises_bind (raises_tell hboth) fun _ => hQ.raises rfl
    · split
      · exact raises_bind (raises_tell hboth) fun _ => raises_pure _
      · exact raises_bind (raises_tell hyes) fun _ => raises_pure _
      · exact raises_bind (raises_tell hno) fun _ => raises_pure _

theorem raises_gather (hQ : Admits Q) {unique : Bool} {keySpan : Span}
    {round : Value × Value → Eval (Item × Bool)} (hround : ∀ pair, Raises Q (round pair))
    (pairs : List (Value × Value)) :
    ∀ kept marked, Raises Q (gather unique keySpan round kept marked pairs) := by
  induction pairs with
  | nil => exact fun kept marked => raises_pure _
  | cons pair pairs ih =>
    intro kept marked
    refine raises_bind (hround pair) fun r => ?_
    obtain ⟨item, m⟩ := r
    cases item with
    | skip => exact ih _ _
    | unknown => exact raises_pure _
    | keep key value =>
      cases key with
      | none => exact ih _ _
      | some k =>
        by_cases hdup : unique && kept.any fun other => other.1 == some k
        · simp only [hdup, if_true]
          exact hQ.raises rfl
        · simp only [hdup]
          exact ih _ _

theorem raises_iterate (hQ : Admits Q) {entry : Value × Value → Eval (Item × Bool)}
    (hentry : ∀ pair, Raises Q (entry pair)) (keyed group : Bool) (span keySpan : Span)
    (c : Value) : Raises Q (iterate entry keyed group span keySpan c) := by
  unfold iterate
  split
  · exact hQ.raises rfl
  · exact raises_pure _
  · split
    · exact hQ.raises rfl
    · refine raises_bind (raises_gather hQ hentry _ _ _) fun gathered => ?_
      obtain ⟨kept, marked⟩ := gathered
      cases kept with
      | none => exact raises_pure _
      | some kept => exact raises_pure _

end Eval

end StaticConfig
