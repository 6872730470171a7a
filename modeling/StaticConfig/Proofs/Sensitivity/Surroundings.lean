import StaticConfig.Proofs.Builtin.Call
import StaticConfig.Proofs.Evaluation.Called
import StaticConfig.Proofs.Termination.Ends

/-!
What the surroundings of an evaluation can change. Where impure functions are not run, they have a
say only in definitions that the evaluation reads: the expressions of these are evaluated on their
own, with all functions.
-/
namespace StaticConfig.Library

open Setting (AgreeOn)

variable {ambient ambient' : Ambient} {pureOnly : Bool} {names : Set String}

theorem withEvaluator_of_pure {name : String} (htime : name ≠ "timestamp") (hid : name ≠ "uuid")
    (ambient ambient' : Ambient) (evaluate : Reading) (site : Span) :
    withEvaluator ambient evaluate site name = withEvaluator ambient' evaluate site name := by
  have hlookup (ambient : Ambient) : (impureFunctions ambient site).lookup name = none := by
    simp only [impureFunctions, List.lookup_cons, beq_eq_false_iff_ne.2 htime,
      beq_eq_false_iff_ne.2 hid, List.lookup_nil]
  rw [withEvaluator, withEvaluator, hlookup, hlookup]

theorem agreeOn_of_pure (htime : "timestamp" ∉ names) (hid : "uuid" ∉ names) (evaluate : Reading) :
    AgreeOn names ⟨withEvaluator ambient evaluate, pureOnly⟩
      ⟨withEvaluator ambient' evaluate, pureOnly⟩ := by
  intro name hname vs span
  have hne {other : String} (h : other ∉ names) : name ≠ other := fun heq => h (heq ▸ hname)
  simp only [Eval.callNamed, withEvaluator_of_pure (hne htime) (hne hid) ambient ambient']

/-- An impure function that is not run is not asked for its answer. -/
theorem agreeOn_of_pureOnly (evaluate : Reading) :
    AgreeOn names ⟨withEvaluator ambient evaluate, true⟩
      ⟨withEvaluator ambient' evaluate, true⟩ := by
  intro name _ vs span
  by_cases htime : name = "timestamp"
  · subst htime
    rfl
  by_cases hid : name = "uuid"
  · subst hid
    rfl
  simp only [Eval.callNamed, withEvaluator_of_pure htime hid ambient ambient']

theorem agreeOn_of_not_decoding (h : decoding ∉ names) (evaluate evaluate' : Reading) :
    AgreeOn names ⟨withEvaluator ambient evaluate, pureOnly⟩
      ⟨withEvaluator ambient evaluate', pureOnly⟩ := by
  intro name hname vs span
  have hne : name ≠ decoding := fun heq => h (heq ▸ hname)
  simp only [Eval.callNamed, withEvaluator_of_ne hne ambient evaluate evaluate']

/-- Where impure functions are not run, what is read is all that can differ. -/
theorem evalWith_of_pureOnly (env : Env) (e : Expr) :
    evalWith ambient true env e = evalWith ambient' true env e := by
  funext evaluate
  have h : AgreeOn Set.univ ⟨withEvaluator ambient evaluate, true⟩
      ⟨withEvaluator ambient' evaluate, true⟩ := agreeOn_of_pureOnly evaluate
  exact h.eval e env fun _ _ _ _ => trivial

/-! Where impure functions are run, and in definitions that are read in any case. -/

/-- The call of a function without arguments. -/
def callBare (name : String) : Expr := .call default name [] false

theorem eval_time (ambient : Ambient) :
    Eval.eval ⟨standard ambient, false⟩ [] (callBare "timestamp") = ⟨.string ambient.now, []⟩ :=
  rfl

theorem eval_id (ambient : Ambient) :
    Eval.eval ⟨standard ambient, false⟩ [] (callBare "uuid") =
      ⟨.string (ambient.freshId default), []⟩ :=
  rfl

/-- The time, read from definitions. -/
def readsTime : Expr :=
  .call default decoding [.template default [.text "a = timestamp()"]] false

def isTime : Expr → Bool
  | .call _ "timestamp" [] false => true
  | _ => false

def definesTime (r : Except SyntaxError Body) : Bool :=
  match r with
  | .error _ => false
  | .ok body => body.blocks.isEmpty && match body.attributes with
    | [("a", a)] => isTime a.expr
    | _ => false

theorem of_definesTime {r : Except SyntaxError Body} (h : definesTime r) : ∃ body a span,
    r = .ok body ∧ body.blocks = [] ∧ body.attributes = [("a", a)] ∧
      a.expr = .call span "timestamp" [] false := by
  unfold definesTime at h
  split at h
  · cases h
  · rename_i body
    rw [Bool.and_eq_true] at h
    obtain ⟨hblocks, h⟩ := h
    split at h
    · rename_i a hattributes
      unfold isTime at h
      split at h
      · exact ⟨body, a, _, rfl, List.isEmpty_iff.1 hblocks, hattributes, by assumption⟩
      · cases h
    · cases h

theorem evaluator_time (ambient : Ambient) (span : Span) :
    evaluator ambient (.call span "timestamp" [] false) = ⟨.string ambient.now, []⟩ :=
  rfl

/-- The time is read in any case. -/
theorem eval_readsTime (ambient : Ambient) (pureOnly : Bool) :
    Eval.eval ⟨standard ambient, pureOnly⟩ [] readsTime =
      ⟨.object [("a", .string ambient.now)], []⟩ := by
  have hdefines : definesTime
      (Parser.file ⟨Builtin.Definitions.sourceName, "a = timestamp()"⟩) := by decide +kernel
  obtain ⟨body, a, span, hbody, hblocks, hattributes, ha⟩ := of_definesTime hdefines
  have hread : evaluator ambient a.expr = ⟨.string ambient.now, []⟩ := by
    rw [ha]
    exact evaluator_time ambient span
  exact Eval.eval_call_eq_clean.2
    ⟨_, rfl, callNamed_decoding hbody hblocks hattributes hread default⟩

theorem callsIn_callBare {name : String} (h : name ∈ names) : (callBare name).CallsIn names := by
  intro p hp
  rw [List.mem_singleton.1 hp]
  rintro _ ⟨⟩
  exact h

theorem callsIn_readsTime (h : decoding ∈ names) : readsTime.CallsIn names := by
  simp only [Expr.CallsIn, readsTime, Expr.parts, Expr.partsOfAll, Expr.partsOfTemplate,
    List.append_nil, List.forall_mem_cons]
  refine ⟨?_, ?_, List.forall_mem_nil _⟩
  · rintro _ ⟨⟩
    exact h
  · rintro _ ⟨⟩

/-- What the surroundings have a say in: the expressions that read definitions, and unless impure
functions are excluded, those that call one. -/
theorem eval_unaffected_iff : (∀ e : Expr, e.CallsIn names → ∀ env ambient ambient',
    Eval.eval ⟨standard ambient, pureOnly⟩ env e = Eval.eval ⟨standard ambient', pureOnly⟩ env e) ↔
      decoding ∉ names ∧ (pureOnly = true ∨ "timestamp" ∉ names ∧ "uuid" ∉ names) := by
  constructor
  · intro h
    -- The two differ in all that they give.
    let here : Ambient := ⟨"", fun _ => ""⟩
    let there : Ambient := ⟨"now", fun _ => "id"⟩
    refine ⟨fun hmem => ?_, ?_⟩
    · have hsame := h _ (callsIn_readsTime hmem) [] here there
      rw [eval_readsTime, eval_readsTime] at hsame
      simp [here, there] at hsame
    · cases pureOnly with
      | true => exact .inl rfl
      | false =>
        refine .inr ⟨fun hmem => ?_, fun hmem => ?_⟩
        · have hsame := h _ (callsIn_callBare hmem) [] here there
          rw [eval_time, eval_time] at hsame
          simp [here, there] at hsame
        · have hsame := h _ (callsIn_callBare hmem) [] here there
          rw [eval_id, eval_id] at hsame
          simp [here, there] at hsame
  · rintro ⟨hdecoding, h⟩ e he env ambient ambient'
    have hread : AgreeOn names ⟨withEvaluator ambient (evaluator ambient), pureOnly⟩
        ⟨withEvaluator ambient (evaluator ambient'), pureOnly⟩ :=
      agreeOn_of_not_decoding hdecoding _ _
    refine (hread.eval e env he).trans ?_
    rcases h with rfl | ⟨htime, hid⟩
    · exact congrFun (evalWith_of_pureOnly env e) (evaluator ambient')
    · exact (agreeOn_of_pure htime hid (evaluator ambient')).eval e env he

/-- The time is read although impure functions are excluded. -/
theorem eval_affected_by_time :
    Eval.eval ⟨standard ⟨"then", fun _ => ""⟩, true⟩ [] readsTime ≠
      Eval.eval ⟨standard ⟨"now", fun _ => ""⟩, true⟩ [] readsTime := by
  rw [eval_readsTime, eval_readsTime]
  simp

end StaticConfig.Library
