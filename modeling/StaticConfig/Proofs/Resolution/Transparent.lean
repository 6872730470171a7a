import StaticConfig.Proofs.Conversion.Converts
import StaticConfig.Proofs.Evaluation.Forms
import StaticConfig.Proofs.Resolution.Cycles
import StaticConfig.Proofs.Scoping.Roots
import StaticConfig.Proofs.Scoping.Wanted

/-!
Local values stand for their expressions. Nothing but a circular reference can tell which
references are in progress. So an expression that has no such reference has the same value under
every stack that leaves alone the local values it resolves, and a local value that has no error is
the value of its expression.
-/
namespace StaticConfig

open Relation Resolving

namespace Scope

variable {ε σ : Type} {may : ε → Prop} {s s' : σ}

theorem outcome_lookupAll_congr {source source' : DataSource ε σ}
    (h : ∀ r, Coincide may s (source.lookup r) (source.lookup r))
    (h' : ∀ r, Coincide may s' (source'.lookup r) (source'.lookup r)) {rs : List Reference}
    (heq : ∀ r ∈ rs, (source.lookup r).outcome s = (source'.lookup r).outcome s') :
    ∀ (roots : Roots) (ds : Diagnostics),
      (lookupAll source roots ds rs).outcome s = (lookupAll source' roots ds rs).outcome s' := by
  induction rs with
  | nil => exact fun roots ds => rfl
  | cons r rs ih =>
    intro roots ds
    obtain ⟨hr, hrs⟩ := List.forall_mem_cons.1 heq
    rw [lookupAll, lookupAll, outcome_bind (h r), outcome_bind (h' r), ← hr]
    cases (source.lookup r).outcome s with
    | error e => rfl
    | ok found => exact ih hrs _ _

/-- Where the lookups of references end without an error, so does each of them. -/
theorem clean_of_lookupAll {source : DataSource ε σ}
    (h : ∀ r, Coincide may s (source.lookup r) (source.lookup r)) {rs : List Reference} :
    ∀ {roots : Roots} {ds : Diagnostics} {out : Report Roots},
      (lookupAll source roots ds rs).outcome s = .ok out → out.diags.hasErrors = false →
        ds.hasErrors = false ∧ ∀ r ∈ rs, ∃ found, (source.lookup r).outcome s = .ok found ∧
          found.diags.hasErrors = false := by
  induction rs with
  | nil =>
    intro roots ds out hout hclean
    cases hout
    exact ⟨hclean, nofun⟩
  | cons r rs ih =>
    intro roots ds out hout hclean
    rw [lookupAll, outcome_bind (h r)] at hout
    cases hr : (source.lookup r).outcome s with
    | error e =>
      rw [hr] at hout
      cases hout
    | ok found =>
      rw [hr] at hout
      obtain ⟨hds, hrs⟩ := ih hout hclean
      rw [Diagnostics.hasErrors_append, Bool.or_eq_false_iff] at hds
      exact ⟨hds.1, List.forall_mem_cons.2 ⟨⟨found, hr, hds.2⟩, hrs⟩⟩

variable {scope : Scope ε σ} {e : Expr} {want : Ty}

theorem clean_of_conclude {roots : Report Roots}
    (h : (scope.conclude e want roots).diags.hasErrors = false) :
    roots.diags.hasErrors = false := by
  unfold conclude at h
  split at h
  · exact h
  · rename_i hroots
    exact Bool.eq_false_iff.2 hroots

theorem convert_dynamic_finish (span : Span) (r : Report Value) :
    (finish .dynamic span r).result.convert .dynamic = .ok (finish .dynamic span r).result := by
  unfold finish
  split
  · rename_i v hv
    exact Value.convert_dynamic_of_convert hv
  · rfl

/-- The value of an evaluation that was asked for no type converts to itself. -/
theorem convert_dynamic_conclude (roots : Report Roots) :
    (scope.conclude e .dynamic roots).result.convert .dynamic =
      .ok (scope.conclude e .dynamic roots).result := by
  unfold conclude
  split
  · rfl
  · exact convert_dynamic_finish _ _

end Scope

namespace Evaluator

variable {ev : Evaluator} {s s' : CallStack} {name : String} {span : Span}

/-- Only for a local value does it matter which references are in progress. -/
theorem outcome_lookup_congr {evaluate evaluate' : Expr → Evaluating (Report Value)}
    {r : Reference} (hr : ∀ a, r.subject ≠ .localValue a) :
    (ev.lookup evaluate r).outcome s = (ev.lookup evaluate' r).outcome s' := by
  unfold lookup
  split
  · rw [outcome_eq_of_run (run_liftM _), outcome_eq_of_run (run_liftM _)]
  · rename_i a ha
    exact absurd ha (hr a)
  · rw [outcome_eq_of_run (run_liftM _), outcome_eq_of_run (run_liftM _)]
  · rfl
  · rfl
  · rfl

theorem outcome_localValue_congr {evaluate evaluate' : Expr → Evaluating (Report Value)}
    (h : ev.CoincideEntered s evaluate evaluate) (h' : ev.CoincideEntered s' evaluate' evaluate')
    (heq : ∀ l, ev.locals.get? name = some l → s.isActive ⟨.localValue name, span⟩ = false ∧
      s'.isActive ⟨.localValue name, span⟩ = false ∧
      (evaluate l.expr).outcome (entered s name span) =
        (evaluate' l.expr).outcome (entered s' name span)) :
    (ev.localValue evaluate name span).outcome s =
      (ev.localValue evaluate' name span).outcome s' := by
  cases hm : ev.module "local value" with
  | error e =>
    have hmodule (t : CallStack) :
        (liftM (ev.module "local value") : Evaluating Module).outcome t = .error e := by
      rw [outcome_eq_of_run (run_liftM _), hm]
    rw [localValue, localValue,
      outcome_bind (coincide_liftM fun e he => unconfigured_of_module he),
      outcome_bind (coincide_liftM fun e he => unconfigured_of_module he), hmodule, hmodule]
    rfl
  | ok m =>
    rw [outcome_localValue h hm, outcome_localValue h' hm]
    cases hl : ev.locals.get? name with
    | none => rfl
    | some l =>
      obtain ⟨hidle, hidle', hsame⟩ := heq l hl
      simp only [hidle, hidle', Bool.false_eq_true, if_false, hsame]

theorem isActive_entered {b : String} {range : Span} :
    (entered s name span).isActive ⟨.localValue b, range⟩ = false ↔
      s.isActive ⟨.localValue b, range⟩ = false ∧
        (Subject.localValue b).text ≠ (Subject.localValue name).text := by
  rw [entered, CallStack.isActive_enter, Bool.or_eq_false_iff, beq_eq_false_iff_ne, and_comm]

theorem coincide_resolve {evaluate : Expr → Evaluating (Report Value)}
    (h : ev.CoincideEntered s evaluate evaluate) (e : Expr) :
    Coincide ev.Unconfigured s ((ev.scopeWith evaluate).resolve e)
      ((ev.scopeWith evaluate).resolve e) := by
  have hlookup (r : Reference) : Coincide ev.Unconfigured s
      ((ev.scopeWith evaluate).source.lookup r) ((ev.scopeWith evaluate).source.lookup r) :=
    coincide_lookup h r
  exact Scope.coincide_lookupAll hlookup _ _ _

/-- Where what an expression refers to has no error, no local value that is looked up has any. -/
theorem clean_of_resolve {evaluate : Expr → Evaluating (Report Value)}
    (h : ev.CoincideEntered s evaluate evaluate) {e : Expr} {roots : Report Roots}
    (hroots : ((ev.scopeWith evaluate).resolve e).outcome s = .ok roots)
    (hclean : roots.diags.hasErrors = false) (hlooks : LooksUp e name span) :
    ∃ found, (ev.localValue evaluate name span).outcome s = .ok found ∧
      found.diags.hasErrors = false := by
  have hlookup (r : Reference) : Coincide ev.Unconfigured s
      ((ev.scopeWith evaluate).source.lookup r) ((ev.scopeWith evaluate).source.lookup r) :=
    coincide_lookup h r
  exact (Scope.clean_of_lookupAll hlookup hroots hclean).2 _ hlooks

theorem resolve_of_outcome {evaluate : Expr → Evaluating (Report Value)}
    (h : ev.CoincideEntered s evaluate evaluate) {e : Expr} {want : Ty} {out : Report Value}
    (hout : ((ev.scopeWith evaluate).eval e want).outcome s = .ok out) :
    ∃ roots, ((ev.scopeWith evaluate).resolve e).outcome s = .ok roots ∧
      (ev.scopeWith evaluate).conclude e want roots = out := by
  have heval := (Scope.coincide_eval (ev.scopeWith evaluate) (coincide_lookup h) e want).left
  rw [hout] at heval
  obtain ⟨roots, hroots, hconclude⟩ := Scope.run_eval_eq_ok.1 heval
  exact ⟨roots, outcome_eq_of_run hroots, hconclude⟩

/-- An evaluation depends on the references in progress through its lookups only. -/
theorem outcome_eval_congr {evaluate evaluate' : Expr → Evaluating (Report Value)}
    (h : ev.CoincideEntered s evaluate evaluate) (h' : ev.CoincideEntered s' evaluate' evaluate')
    {e : Expr} {want : Ty} {out : Report Value}
    (heq : ∀ r ∈ Scope.distinctFrom [] (References.ofExpr [] e).refs,
      (ev.lookup evaluate r).outcome s = (ev.lookup evaluate' r).outcome s')
    (hout : ((ev.scopeWith evaluate).eval e want).outcome s = .ok out) :
    ((ev.scopeWith evaluate').eval e want).outcome s' = .ok out := by
  have hresolve : ((ev.scopeWith evaluate).resolve e).outcome s =
      ((ev.scopeWith evaluate').resolve e).outcome s' :=
    Scope.outcome_lookupAll_congr (coincide_lookup h) (coincide_lookup h') heq _ _
  obtain ⟨roots, hroots, hconclude⟩ := resolve_of_outcome h hout
  have hrun : ((ev.scopeWith evaluate').eval e want).run.run s' = (.ok out, s') := by
    refine Scope.run_eval_eq_ok.2 ⟨roots, ?_, hconclude⟩
    rw [(coincide_resolve h' e).left, ← hresolve, hroots]
  exact outcome_eq_of_run hrun

/-- The evaluation of the expression looks up the declared local value, either for the expression
itself or for that of another local value that it resolves. -/
inductive Resolves (ev : Evaluator) : Expr → String → Prop
  | itself {e : Expr} {a : String} {span : Span} :
    LooksUp e a span → a ∈ ev.locals.keys → Resolves ev e a
  | through {e : Expr} {a b : String} {span : Span} {l : LocalValue} :
    LooksUp e a span → ev.locals.get? a = some l → Resolves ev l.expr b → Resolves ev e b

theorem Resolves.reachable {e : Expr} {a : String} (h : ev.Resolves e a) {x : String}
    {l : LocalValue} (hl : ev.locals.get? x = some l) (he : l.expr = e) :
    ReflTransGen ev.DependsOn x a := by
  induction h generalizing x l with
  | itself hlooks ha =>
    subst he
    exact .single ⟨l, hl, hlooks.refersTo ha⟩
  | @through e a b span l' hlooks hl' _ ih =>
    subst he
    have hfirst : ev.DependsOn x a := ⟨l, hl, hlooks.refersTo (Fields.mem_keys_of_get? hl')⟩
    exact .head hfirst (ih hl' rfl)

/-- What is looked up for an expression that has no error is not in progress, and has no error
either. -/
theorem idle_of_looksUp {fuel : Nat} {e : Expr} {want : Ty} {out : Report Value}
    (hfuel : (ev.idle s).length < fuel + 1)
    (hout : (ev.evalWithin (fuel + 1) e want).outcome s = .ok out)
    (hclean : out.diags.hasErrors = false) (hlooks : LooksUp e name span) {l : LocalValue}
    (hl : ev.locals.get? name = some l) :
    s.isActive ⟨.localValue name, span⟩ = false ∧
      ∃ found, (ev.localValue (fun e => ev.evalWithin fuel e .dynamic) name span).outcome s =
          .ok found ∧
        (ev.evalWithin fuel l.expr .dynamic).outcome (entered s name span) = .ok found ∧
        found.diags.hasErrors = false := by
  have hentered := coincideEntered_self (Nat.lt_succ_iff.1 hfuel)
  obtain ⟨roots, hroots, hconclude⟩ := resolve_of_outcome hentered hout
  rw [← hconclude] at hclean
  obtain ⟨found, hlookup, hinner⟩ :=
    clean_of_resolve hentered hroots (Scope.clean_of_conclude hclean) hlooks
  have hidle : s.isActive ⟨.localValue name, span⟩ = false := by
    cases ha : s.isActive ⟨.localValue name, span⟩ with
    | false => rfl
    | true =>
      obtain ⟨m, hm⟩ := exists_module_of_localValue hlookup
      rw [outcome_localValue hentered hm, hl] at hlookup
      simp only [ha, if_true] at hlookup
      cases hlookup
      cases hinner
  exact ⟨hidle, found, hlookup, outcome_of_idle hentered hlookup hl hidle, hinner⟩

/-- What an expression without errors resolves is not in progress. -/
theorem not_active_of_resolves (fuel : Nat) : ∀ {s : CallStack} {e : Expr} {want : Ty}
    {out : Report Value}, (ev.idle s).length < fuel →
      (ev.evalWithin fuel e want).outcome s = .ok out → out.diags.hasErrors = false →
        ∀ {b : String}, ev.Resolves e b → ∀ span, s.isActive ⟨.localValue b, span⟩ = false := by
  induction fuel with
  | zero => exact fun hfuel => absurd hfuel (Nat.not_lt_zero _)
  | succ fuel ih =>
    intro s e want out hfuel hout hclean b hb span
    cases hb with
    | itself hlooks hb =>
      obtain ⟨l, hl⟩ := Fields.exists_get?_of_mem_keys hb
      exact (idle_of_looksUp hfuel hout hclean hlooks hl).1
    | through hlooks hl hb =>
      obtain ⟨hidle, found, -, hfound, hinner⟩ := idle_of_looksUp hfuel hout hclean hlooks hl
      have hlt := length_idle_entered (Fields.mem_keys_of_get? hl) hidle
      exact (isActive_entered.1 (ih (by omega) hfound hinner hb span)).1

/-- The value of an expression without errors does not depend on which references
are in progress, as long as those that it resolves are not. -/
theorem outcome_of_not_active (fuel : Nat) : ∀ {s : CallStack} {e : Expr} {want : Ty}
    {out : Report Value}, (ev.idle s).length < fuel →
      (ev.evalWithin fuel e want).outcome s = .ok out → out.diags.hasErrors = false →
        ∀ (fuel' : Nat) (s' : CallStack), (ev.idle s').length < fuel' →
          (∀ b, ev.Resolves e b → ∀ span, s'.isActive ⟨.localValue b, span⟩ = false) →
            (ev.evalWithin fuel' e want).outcome s' = .ok out := by
  induction fuel with
  | zero => exact fun hfuel => absurd hfuel (Nat.not_lt_zero _)
  | succ fuel ih =>
    intro s e want out hfuel hout hclean fuel' s' hfuel' hidle'
    cases fuel' with
    | zero => exact absurd hfuel' (Nat.not_lt_zero _)
    | succ fuel' =>
      have hentered := coincideEntered_self (Nat.lt_succ_iff.1 hfuel)
      have hentered' := coincideEntered_self (Nat.lt_succ_iff.1 hfuel')
      have hlocal (a : String) (span : Span) (hlooks : LooksUp e a span) :
          (ev.localValue (fun e => ev.evalWithin fuel e .dynamic) a span).outcome s =
            (ev.localValue (fun e => ev.evalWithin fuel' e .dynamic) a span).outcome s' := by
        refine outcome_localValue_congr hentered hentered' fun l hl => ?_
        obtain ⟨hidle, found, -, hfound, hinner⟩ := idle_of_looksUp hfuel hout hclean hlooks hl
        have hmem := Fields.mem_keys_of_get? hl
        have ha' := hidle' a (.itself hlooks hmem) span
        have hlt := length_idle_entered hmem hidle
        have hlt' := length_idle_entered hmem ha'
        have hroom : (ev.idle (entered s a span)).length < fuel := by omega
        have hroom' : (ev.idle (entered s' a span)).length < fuel' := by omega
        have hsame := ih hroom hfound hinner fuel' (entered s' a span) hroom' fun b hb range => by
          have hactive := not_active_of_resolves fuel hroom hfound hinner hb range
          have hne := (isActive_entered.1 hactive).2
          exact isActive_entered.2 ⟨hidle' b (.through hlooks hl hb) range, hne⟩
        exact ⟨hidle, ha', hfound.trans hsame.symm⟩
      refine outcome_eval_congr hentered hentered' (fun r hr => ?_) hout
      by_cases hr' : ∃ a, r.subject = .localValue a
      · obtain ⟨subject, span⟩ := r
        obtain ⟨a, ha⟩ := hr'
        cases ha
        exact hlocal a span hr
      · exact outcome_lookup_congr (not_exists.1 hr')

/-- The expression `local.x`. -/
def localNamed (span range : Span) (x : String) : Expr :=
  .traversal span "local" [.attr range x]

theorem looksUp_localNamed (span range : Span) (x : String) :
    LooksUp (localNamed span range x) x (span.through range) :=
  List.mem_cons_self

/-- What `local.x` resolves is `x` and what can be reached from there. -/
theorem reachable_of_resolves_localNamed {span range : Span} {x b : String}
    (h : ev.Resolves (localNamed span range x) b) : ReflTransGen ev.DependsOn x b := by
  have hnamed {a : String} {span' : Span} (hlooks : LooksUp (localNamed span range x) a span') :
      a = x := by
    cases List.mem_singleton.1 hlooks
    rfl
  cases h with
  | itself hlooks _ =>
    rw [hnamed hlooks]
  | through hlooks hl hb =>
    rw [hnamed hlooks] at hl
    exact hb.reachable hl rfl

theorem resolve_localNamed {evaluate : Expr → Evaluating (Report Value)}
    (h : ev.CoincideEntered s evaluate evaluate) {span range : Span} {x : String}
    {found : Report Value}
    (hfound : (ev.localValue evaluate x (span.through range)).outcome s = .ok found) :
    ((ev.scopeWith evaluate).resolve (localNamed span range x)).outcome s =
      .ok ⟨Roots.empty.insert (.localValue x) found.result, found.diags⟩ := by
  let r : Reference := ⟨.localValue x, span.through range⟩
  have hlookup : ((ev.scopeWith evaluate).source.lookup r).outcome s = .ok found := hfound
  have hself : Coincide ev.Unconfigured s ((ev.scopeWith evaluate).source.lookup r)
      ((ev.scopeWith evaluate).source.lookup r) := coincide_lookup h r
  change (Scope.lookupAll _ Roots.empty [] [r]).outcome s = _
  rw [Scope.lookupAll, outcome_bind hself, hlookup]
  rfl

/-- The value of an evaluation that was asked for no type converts to itself. -/
theorem convert_dynamic_of_outcome {fuel : Nat} {e : Expr} {out : Report Value}
    (hfuel : (ev.idle s).length < fuel)
    (hout : (ev.evalWithin fuel e .dynamic).outcome s = .ok out) :
    out.result.convert .dynamic = .ok out.result := by
  cases fuel with
  | zero => exact absurd hfuel (Nat.not_lt_zero _)
  | succ fuel =>
    have hentered := coincideEntered_self (Nat.lt_succ_iff.1 hfuel)
    obtain ⟨roots, -, hconclude⟩ := resolve_of_outcome hentered hout
    rw [← hconclude]
    exact Scope.convert_dynamic_conclude roots

/-- If `local.x` has no error, it is the value that its expression has while `x` is in progress. -/
theorem outcome_of_localNamed {fuel : Nat} {span range : Span} {x : String} {l : LocalValue}
    {out : Report Value} (hfuel : (ev.idle s).length < fuel + 1)
    (hl : ev.locals.get? x = some l)
    (hout : (ev.evalWithin (fuel + 1) (localNamed span range x) .dynamic).outcome s = .ok out)
    (hclean : out.diags.hasErrors = false) :
    (ev.idle (entered s x (span.through range))).length < fuel ∧
      (ev.evalWithin fuel l.expr .dynamic).outcome (entered s x (span.through range)) =
        .ok out := by
  have hentered := coincideEntered_self (Nat.lt_succ_iff.1 hfuel)
  obtain ⟨hidle, found, hlookup, hfound, hinner⟩ :=
    idle_of_looksUp hfuel hout hclean (looksUp_localNamed span range x) hl
  have hlt := length_idle_entered (Fields.mem_keys_of_get? hl) hidle
  have hroom : (ev.idle (entered s x (span.through range))).length < fuel := by omega
  have hconvert := convert_dynamic_of_outcome hroom hfound
  obtain ⟨roots, hroots, hconclude⟩ := resolve_of_outcome hentered hout
  rw [resolve_localNamed hentered hlookup] at hroots
  cases hroots
  have hvalue : out = found := by
    rw [← hconclude, localNamed, Scope.conclude_attribute rfl hconvert, hinner]
    rfl
  exact ⟨hroom, by rw [hvalue, hfound]⟩

/-- Local values are transparent. If `local.x` has no error where no reference is in progress, then
it is the value that its expression has there, with the same diagnostics. And it is the same value
whatever references are in progress, as long as `x` and the local values that it depends on are
not among them. -/
theorem local_transparent (ev : Evaluator) {x : String} {l : LocalValue}
    (hl : ev.locals.get? x = some l) (span range : Span) {out : Report Value} {s : CallStack}
    (hrun : (ev.eval (localNamed span range x) .dynamic).run.run .empty = (.ok out, s))
    (hclean : out.diags.hasErrors = false) :
    (ev.eval l.expr .dynamic).run.run .empty = (.ok out, .empty) ∧
      ∀ s' : CallStack,
        (∀ b, ReflTransGen ev.DependsOn x b →
          ∀ range, s'.isActive ⟨.localValue b, range⟩ = false) →
        (ev.eval (localNamed span range x) .dynamic).run.run s' = (.ok out, s') := by
  have hout := outcome_eq_of_run hrun
  have hlimit := chainLimit_eq ev
  have hroom (s : CallStack) : (ev.idle s).length < ev.chainLimit := by
    have hidle := length_idle_le ev s
    omega
  constructor
  · have hchain : ev.eval (localNamed span range x) .dynamic =
        ev.evalWithin (ev.locals.length + 1) (localNamed span range x) .dynamic := by
      rw [eval, hlimit]
    rw [hchain] at hout
    have hempty : (ev.idle .empty).length < ev.locals.length + 1 := by
      have hidle := hroom .empty
      omega
    obtain ⟨hfuel, hentered⟩ := outcome_of_localNamed hempty hl hout hclean
    have hsame := outcome_of_not_active _ hfuel hentered hclean ev.chainLimit .empty (hroom _)
      fun b hb range => rfl
    rw [(coincide_eval ev .empty l.expr .dynamic).left]
    exact congrArg (·, CallStack.empty) hsame
  · intro s' hidle
    have hsame := outcome_of_not_active ev.chainLimit (hroom _) hout hclean ev.chainLimit s'
      (hroom _) fun b hb => hidle b (reachable_of_resolves_localNamed hb)
    rw [(coincide_eval ev s' _ .dynamic).left]
    exact congrArg (·, s') hsame

/-- A module with a token that is not shown, and local values that come from it. -/
def ofToken : Evaluator where
  session := ⟨"default", "", .ok "/"⟩
  path := ⟨[]⟩
  tree :=
    let token : InputVariable :=
      { (default : InputVariable) with
        name := "token", default := some (.string "t"), ty := .string, constraint := .string
        nullable := true, sensitive := true }
    let value (name : String) (e : Expr) : String × LocalValue := (name, ⟨name, e, default⟩)
    let named := localNamed default default
    .ofModule { Module.empty "." with
      inputs := [("token", token)]
      locals := [value "all" (named "pair"),
        value "first" (.traversal default "var" [.attr default "token"]),
        value "pair" (.tuple default [named "first", named "second"]),
        value "second" (named "first")] }
  table := [("", [])]
  library := fun _ _ => none

theorem mem_of_dependsOn_ofToken {a b : String} (h : ofToken.DependsOn a b)
    (ha : a ∈ ["pair", "first", "second"]) : b ∈ ["pair", "first", "second"] := by
  obtain ⟨l, hl, -, r, hr, hsubject⟩ := h
  simp only [List.mem_cons, List.not_mem_nil, or_false] at ha
  rcases ha with rfl | rfl | rfl
  · cases hl
    rcases List.mem_cons.1 hr with rfl | hr
    · cases hsubject
      decide
    · cases List.mem_singleton.1 hr
      cases hsubject
      decide
  · cases hl
    cases List.mem_singleton.1 hr
    cases hsubject
  · cases hl
    cases List.mem_singleton.1 hr
    cases hsubject
    decide

/-- The pair has the token twice, with its marks, also while something that depends on the pair is
being resolved. -/
theorem local_transparent_token :
    let pair : Report Value := ⟨.tuple [.sensitive (.string "t"), .sensitive (.string "t")], []⟩
    let named := localNamed default default
    (ofToken.eval (.tuple default [named "first", named "second"]) .dynamic).run.run .empty =
        (.ok pair, .empty) ∧
      (ofToken.eval (named "pair") .dynamic).run.run (entered .empty "all" default) =
        (.ok pair, entered .empty "all" default) := by
  intro pair named
  have hrun : (ofToken.eval (named "pair") .dynamic).run.run .empty = (.ok pair, .empty) := rfl
  obtain ⟨hvalue, hframe⟩ := local_transparent ofToken rfl default default hrun rfl
  refine ⟨hvalue, hframe _ fun b hb range => ?_⟩
  have hmem : b ∈ ["pair", "first", "second"] := by
    induction hb with
    | refl => decide
    | tail _ hlast ih => exact mem_of_dependsOn_ofToken hlast ih
  have hother : "all" ∉ ["pair", "first", "second"] := by decide
  refine isActive_entered.2 ⟨rfl, fun htext => hother ?_⟩
  rwa [← Subject.text_localValue_injective htext]

end Evaluator

end StaticConfig
