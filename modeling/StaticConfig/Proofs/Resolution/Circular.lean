import StaticConfig.Proofs.Evaluation.Raised
import StaticConfig.Proofs.Resolution.Frame
import StaticConfig.Proofs.Resolution.Mentions

/-!
Which diagnostics about circular references an evaluation reports: those of the references that
it looks up. Of these only a local value has any, either its own, when it is in progress, or those
of its expression.
-/
namespace StaticConfig

open Resolving

/-- One of the diagnostics reports the chain of references as circular. -/
def Diagnostics.Circular (ds : Diagnostics) (chain : String) : Prop :=
  ∃ d ∈ ds, d.kind = .circularReference chain

namespace Diagnostics

variable {ds : Diagnostics} {chain : String}

theorem circular_append {ds' : Diagnostics} :
    (ds ++ ds').Circular chain ↔ ds.Circular chain ∨ ds'.Circular chain := by
  simp only [Circular, List.mem_append, or_and_right, exists_or]

theorem not_circular_of_kind (h : ∀ d ∈ ds, ∀ c, d.kind ≠ .circularReference c) :
    ¬ds.Circular chain := by
  rintro ⟨d, hd, hkind⟩
  exact h d hd _ hkind

theorem not_circular_nil : ¬Circular [] chain := nofun

end Diagnostics

namespace Scope

variable {σ ε : Type} {may : ε → Prop} {s : σ}

theorem mem_of_mem_distinctFrom {rs : List Reference} {r : Reference} :
    ∀ {seen : List String}, r ∈ distinctFrom seen rs → r ∈ rs := by
  induction rs with
  | nil => exact fun h => h
  | cons r' rs ih =>
    intro seen h
    unfold distinctFrom at h
    split at h
    · exact List.mem_cons_of_mem _ (ih h)
    · rcases List.mem_cons.1 h with rfl | h
      · exact List.mem_cons_self
      · exact List.mem_cons_of_mem _ (ih h)

/-- Of the references with one text, the first stays. -/
theorem exists_mem_distinctFrom {rs : List Reference} {r : Reference} (hr : r ∈ rs) :
    ∀ seen : List String, r.subject.text ∉ seen →
      ∃ r' ∈ distinctFrom seen rs, r'.subject.text = r.subject.text := by
  induction rs with
  | nil => cases hr
  | cons first rs ih =>
    intro seen hseen
    unfold distinctFrom
    split
    · rename_i hfirst
      rcases List.mem_cons.1 hr with rfl | hr
      · exact absurd (List.contains_iff_mem.1 hfirst) hseen
      · exact ih hr seen hseen
    · by_cases heq : r.subject.text = first.subject.text
      · exact ⟨first, List.mem_cons_self, heq.symm⟩
      · rcases List.mem_cons.1 hr with rfl | hr
        · exact absurd rfl heq
        · obtain ⟨r', hr', htext⟩ := ih hr (first.subject.text :: seen) (by simp [heq, hseen])
          exact ⟨r', List.mem_cons_of_mem _ hr', htext⟩

variable {source : DataSource ε σ}

/-- The lookups succeed, and what they report is reported. -/
theorem outcome_lookupAll (h : ∀ r, Coincide may s (source.lookup r) (source.lookup r))
    (rs : List Reference) : ∀ {roots : Roots} {ds : Diagnostics} {out : Report Roots},
      (lookupAll source roots ds rs).outcome s = .ok out →
        (∀ r ∈ rs, ∃ found, (source.lookup r).outcome s = .ok found) ∧
        ∀ chain, out.diags.Circular chain ↔ ds.Circular chain ∨
          ∃ r ∈ rs, ∃ found, (source.lookup r).outcome s = .ok found ∧
            found.diags.Circular chain := by
  induction rs with
  | nil =>
    intro roots ds out hout
    cases hout
    exact ⟨nofun, fun chain => by simp⟩
  | cons r rs ih =>
    intro roots ds out hout
    rw [lookupAll, outcome_bind (h r)] at hout
    cases hr : (source.lookup r).outcome s with
    | error e =>
      rw [hr] at hout
      cases hout
    | ok found =>
      rw [hr] at hout
      obtain ⟨hfound, hdiags⟩ := ih hout
      refine ⟨?_, fun chain => ?_⟩
      · intro r' hr'
        rcases List.mem_cons.1 hr' with rfl | hr'
        · exact ⟨found, hr⟩
        · exact hfound r' hr'
      · rw [hdiags, Diagnostics.circular_append, or_assoc]
        refine or_congr_right ?_
        simp only [List.mem_cons, or_and_right, exists_or, exists_eq_left, hr, Except.ok.injEq]
        simp

theorem circular_finish {want : Ty} {span : Span} {r : Report Value} {chain : String} :
    (finish want span r).diags.Circular chain ↔ r.diags.Circular chain := by
  unfold finish
  split
  · rfl
  · rename_i e _
    rw [Diagnostics.circular_append, or_iff_left]
    exact Diagnostics.not_circular_of_kind (by simp [wrongType, Diagnostic.errorAt])

variable {scope : Scope ε σ}

/-- The diagnostics about circular references that an evaluation has are those of the lookups,
which all succeed. -/
theorem outcome_eval (h : ∀ r, Coincide may s (scope.source.lookup r) (scope.source.lookup r))
    (hvalid : ∀ rs self owner chain, ¬(scope.source.validate rs self owner).Circular chain)
    {e : Expr} {want : Ty} {out : Report Value} (hout : (scope.eval e want).outcome s = .ok out) :
    (∀ r ∈ distinctFrom [] (References.ofExpr [] e).refs,
      ∃ found, (scope.source.lookup r).outcome s = .ok found) ∧
    ∀ chain, out.diags.Circular chain ↔
      ∃ r ∈ distinctFrom [] (References.ofExpr [] e).refs,
        ∃ found, (scope.source.lookup r).outcome s = .ok found ∧ found.diags.Circular chain := by
  rw [eval, outcome_bind (coincide_lookupAll h _ _ _)] at hout
  cases hr : (lookupAll scope.source .empty ((References.ofExpr [] e).diags ++
      scope.source.validate (References.ofExpr [] e).refs scope.selfSubject scope.owner)
      (distinctFrom [] (References.ofExpr [] e).refs)).outcome s with
  | error e =>
    rw [hr] at hout
    cases hout
  | ok roots =>
    rw [hr] at hout
    obtain ⟨hfound, hdiags⟩ := outcome_lookupAll h _ hr
    refine ⟨hfound, fun chain => ?_⟩
    have hstart : ¬((References.ofExpr [] e).diags ++
        scope.source.validate (References.ofExpr [] e).refs scope.selfSubject scope.owner).Circular
          chain := by
      rw [Diagnostics.circular_append, not_or]
      refine ⟨Diagnostics.not_circular_of_kind fun d hd c => ?_, hvalid _ _ _ _⟩
      rw [(References.proper_ofExpr [] e).kind_eq d hd]
      exact nofun
    have hroots := (hdiags chain).trans (or_iff_right hstart)
    rw [← hroots]
    by_cases herrors : Diagnostics.hasErrors roots.diags
    · simp only [bind, Except.bind, herrors, if_true] at hout
      cases hout
      rfl
    · simp only [bind, Except.bind, herrors] at hout
      cases hout
      rw [circular_finish, Diagnostics.circular_append, or_iff_left]
      refine Diagnostics.not_circular_of_kind fun d hd c => ?_
      rw [Eval.kind_of_mem_diags hd]
      exact nofun

end Scope

namespace Evaluator

variable {ev : Evaluator} {s : CallStack} {name chain : String} {span : Span}
  {evaluate : Expr → Evaluating (Report Value)}

theorem outcome_resolving {stack : CallStack} {m : Evaluating (Report Value)}
    (hm : m.run.run stack = (m.outcome stack, stack)) (hpop : stack.pop? = some s) :
    (resolving stack m).outcome s = m.outcome stack := by
  rw [outcome, run_resolving, hm]
  simp only [hpop]

/-- What the lookup of a local value comes to. -/
theorem outcome_localValue (h : ev.CoincideEntered s evaluate evaluate) {m : Module}
    (hm : ev.module "local value" = .ok m) :
    (ev.localValue evaluate name span).outcome s =
      match ev.locals.get? name with
      | none => .ok (undeclaredLocal m name span)
      | some l =>
        if s.isActive ⟨.localValue name, span⟩ then
          .ok ⟨.dynamic, [s.circular ⟨.localValue name, span⟩]⟩
        else (evaluate l.expr).outcome (entered s name span) := by
  have hmodule : (liftM (ev.module "local value") : Evaluating Module).outcome s = .ok m := by
    rw [outcome_eq_of_run (run_liftM _), hm]
  rw [localValue, outcome_bind (coincide_liftM fun e he => unconfigured_of_module he), hmodule]
  change Resolving.outcome (match m.locals.get? name with
    | none => _
    | some l => _) s = _
  rw [locals_of_module hm]
  cases hl : ev.locals.get? name with
  | none => rfl
  | some l =>
    simp only
    rw [outcome_bind (coincide_get : Coincide ev.Unconfigured _ _ _), outcome_get]
    cases ha : s.isActive ⟨.localValue name, span⟩ with
    | true =>
      simp only [bind, Except.bind, CallStack.push_of_isActive ha]
      rfl
    | false =>
      simp only [bind, Except.bind, CallStack.push_of_not_isActive ha]
      exact outcome_resolving (h name span l hl ha).left (CallStack.pop?_enter ha)

theorem not_circular_failed {kind : DiagnosticKind} {summary detail : String}
    (h : ∀ c, kind ≠ .circularReference c) :
    ¬(failed kind summary detail span).diags.Circular chain := by
  refine Diagnostics.not_circular_of_kind fun d hd => ?_
  rw [List.mem_singleton.1 hd]
  exact h

theorem not_circular_convertedValue {v : InputVariable} {a : Value} :
    ¬(convertedValue v a).diags.Circular chain := by
  unfold convertedValue
  dsimp only
  split
  · exact Diagnostics.not_circular_nil
  · exact Diagnostics.not_circular_of_kind (by simp [Diagnostic.errorAt])

theorem not_circular_of_inputVariable {found : Report Value}
    (h : ev.inputVariable name span = .ok found) : ¬found.diags.Circular chain := by
  unfold inputVariable at h
  cases hm : ev.module "input variable" with
  | error e =>
    rw [hm] at h
    cases h
  | ok m =>
    rw [hm] at h
    simp only [bind, Except.bind] at h
    split at h
    · cases h
      exact not_circular_failed (by simp)
    · split at h
      · cases h
        exact Diagnostics.not_circular_nil
      · cases h
        exact not_circular_convertedValue

theorem not_circular_of_pathAttr {found : Report Value}
    (h : ev.pathAttr name span = .ok found) : ¬found.diags.Circular chain := by
  unfold pathAttr at h
  split at h
  · split at h
    · cases h
      exact Diagnostics.not_circular_nil
    · cases h
      exact not_circular_failed (by simp)
  split at h
  · cases hm : ev.module "path.module" with
    | error e =>
      rw [hm] at h
      cases h
    | ok m =>
      rw [hm] at h
      cases h
      exact Diagnostics.not_circular_nil
  split at h
  · cases h
    exact Diagnostics.not_circular_nil
  · cases h
    exact not_circular_failed (by simp)

theorem not_circular_terraformAttr : ¬(ev.terraformAttr name span).diags.Circular chain := by
  unfold terraformAttr
  split
  · exact Diagnostics.not_circular_nil
  split
  · exact not_circular_failed (by simp)
  · exact not_circular_failed (by simp)

/-- Only lookups of local values report circular chains. -/
theorem not_circular_of_lookup {r : Reference} {found : Report Value}
    (hr : ∀ a, r.subject ≠ .localValue a) (hout : (ev.lookup evaluate r).outcome s = .ok found) :
    ¬found.diags.Circular chain := by
  unfold lookup at hout
  split at hout
  · rw [outcome_eq_of_run (run_liftM _)] at hout
    exact not_circular_of_inputVariable hout
  · rename_i a ha
    exact absurd ha (hr a)
  · rw [outcome_eq_of_run (run_liftM _)] at hout
    exact not_circular_of_pathAttr hout
  · cases hout
    exact not_circular_terraformAttr
  · cases hout
    exact Diagnostics.not_circular_nil
  · cases hout
    exact Diagnostics.not_circular_nil

/-- The local value is looked up for the expression, on account of a reference at the range. -/
def LooksUp (e : Expr) (a : String) (span : Span) : Prop :=
  ⟨.localValue a, span⟩ ∈ Scope.distinctFrom [] (References.ofExpr [] e).refs

/-- An evaluation that finishes has looked up local values, and reports the circular chains that
come up there. -/
theorem circular_eval (h : ev.CoincideEntered s evaluate evaluate) {e : Expr} {want : Ty}
    {out : Report Value} (hout : ((ev.scopeWith evaluate).eval e want).outcome s = .ok out) :
    (∀ a span, LooksUp e a span →
      ∃ found, (ev.localValue evaluate a span).outcome s = .ok found) ∧
    ∀ chain, out.diags.Circular chain ↔ ∃ a span found, LooksUp e a span ∧
      (ev.localValue evaluate a span).outcome s = .ok found ∧ found.diags.Circular chain := by
  obtain ⟨hfound, hcircular⟩ := Scope.outcome_eval (coincide_lookup h)
    (fun _ _ _ _ => Diagnostics.not_circular_nil) hout
  refine ⟨fun a span hmem => hfound _ hmem, fun chain => (hcircular chain).trans ⟨?_, ?_⟩⟩
  · rintro ⟨r, hr, found, hlookup, hchain⟩
    obtain ⟨a, ha⟩ : ∃ a, r.subject = .localValue a := by
      by_contra hnot
      exact not_circular_of_lookup (not_exists.1 hnot) hlookup hchain
    obtain ⟨subject, span⟩ := r
    cases ha
    exact ⟨a, span, found, hr, hlookup, hchain⟩
  · rintro ⟨a, span, found, hr, hlookup, hchain⟩
    exact ⟨_, hr, found, hlookup, hchain⟩

section Found

variable {found : Report Value} {l : LocalValue}

theorem exists_module_of_localValue
    (hout : (ev.localValue evaluate name span).outcome s = .ok found) :
    ∃ m, ev.module "local value" = .ok m := by
  cases hm : ev.module "local value" with
  | ok m => exact ⟨m, rfl⟩
  | error e =>
    rw [localValue, outcome_bind (coincide_liftM fun e he => unconfigured_of_module he),
      outcome_eq_of_run (run_liftM _), hm] at hout
    cases hout

theorem not_circular_of_undeclared (h : ev.CoincideEntered s evaluate evaluate)
    (hout : (ev.localValue evaluate name span).outcome s = .ok found)
    (hl : ev.locals.get? name = none) : ¬found.diags.Circular chain := by
  obtain ⟨m, hm⟩ := exists_module_of_localValue hout
  rw [outcome_localValue h hm, hl] at hout
  cases hout
  exact not_circular_failed (by simp)

theorem circular_of_active (h : ev.CoincideEntered s evaluate evaluate)
    (hout : (ev.localValue evaluate name span).outcome s = .ok found)
    (hl : ev.locals.get? name = some l) (ha : s.isActive ⟨.localValue name, span⟩ = true) :
    found.diags.Circular chain ↔
      chain = CallStack.joined (s.chain ++ [(Subject.localValue name).text]) := by
  obtain ⟨m, hm⟩ := exists_module_of_localValue hout
  rw [outcome_localValue h hm, hl] at hout
  simp only [ha, if_true] at hout
  cases hout
  simp [Diagnostics.Circular, CallStack.circular, Diagnostic.errorAt, eq_comm]

theorem outcome_of_idle (h : ev.CoincideEntered s evaluate evaluate)
    (hout : (ev.localValue evaluate name span).outcome s = .ok found)
    (hl : ev.locals.get? name = some l) (ha : s.isActive ⟨.localValue name, span⟩ = false) :
    (evaluate l.expr).outcome (entered s name span) = .ok found := by
  obtain ⟨m, hm⟩ := exists_module_of_localValue hout
  rw [outcome_localValue h hm, hl] at hout
  simpa only [ha, Bool.false_eq_true, if_false] using hout

end Found

end Evaluator

end StaticConfig
