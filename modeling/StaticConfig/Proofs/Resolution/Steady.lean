import StaticConfig.Scope.Expansion

/-!
Computations that leave their state as they found it. Two computations coincide in a state when
they end there with the same result, both with the state unchanged; what is put together from
such computations has the same property. So two scopes whose sources answer alike give the same
values and the same expanded bodies.
-/
namespace StaticConfig

namespace Resolving

variable {ε σ α β : Type}

/-- The result that the computation has in a state. -/
def outcome (m : Resolving ε σ α) (s : σ) : Except ε α := (m.run.run s).1

/-- In the state both computations give the same result and leave the state as it is. They fail
only with a fault that may arise. -/
structure Coincide (may : ε → Prop) (s : σ) (m m' : Resolving ε σ α) : Prop where
  left : m.run.run s = (m.outcome s, s)
  right : m'.run.run s = (m.outcome s, s)
  fault : ∀ e, m.outcome s = .error e → may e

theorem run_bind (m : Resolving ε σ α) (f : α → Resolving ε σ β) (s : σ) :
    (m >>= f).run.run s =
      match m.run.run s with
      | (.ok a, s') => (f a).run.run s'
      | (.error e, s') => (.error e, s') := by
  change (ExceptT.bindCont f (m.run.run s).1).run (m.run.run s).2 = _
  generalize m.run.run s = r
  obtain ⟨a | e, s'⟩ := r <;> rfl

theorem length_of_run_mapM {f : α → Resolving ε σ β} {as : List α} {bs : List β} {s s' : σ}
    (h : (as.mapM f).run.run s = (.ok bs, s')) : bs.length = as.length := by
  induction as generalizing bs s with
  | nil =>
    cases h
    rfl
  | cons a as ih =>
    rw [List.mapM_cons, run_bind] at h
    split at h
    · rw [run_bind] at h
      split at h
      · next b s₁ hb bs₁ s₂ hbs =>
        cases h
        rw [List.length_cons, List.length_cons, ih hbs]
      · cases h
    · cases h

theorem outcome_eq_of_run {m : Resolving ε σ α} {s s' : σ} {r : Except ε α}
    (h : m.run.run s = (r, s')) : m.outcome s = r := by
  rw [outcome, h]

variable {may : ε → Prop} {s : σ}

theorem coincide_of_run {m m' : Resolving ε σ α} {r : Except ε α} (h : m.run.run s = (r, s))
    (h' : m'.run.run s = (r, s)) (hr : ∀ e, r = .error e → may e) : Coincide may s m m' := by
  have ho := outcome_eq_of_run h
  exact ⟨by rw [ho, h], by rw [ho, h'], by rwa [ho]⟩

theorem coincide_pure (a : α) : Coincide may s (pure a : Resolving ε σ α) (pure a) :=
  coincide_of_run rfl rfl nofun

theorem run_liftM (r : Except ε α) :
    (liftM r : Resolving ε σ α).run.run s = (r, s) := by
  cases r <;> rfl

/-- A computation without a state. -/
theorem coincide_liftM {r : Except ε α} (h : ∀ e, r = .error e → may e) :
    Coincide may s (liftM r : Resolving ε σ α) (liftM r) :=
  coincide_of_run (run_liftM r) (run_liftM r) h

theorem coincide_bind {m m' : Resolving ε σ α} {f f' : α → Resolving ε σ β}
    (hm : Coincide may s m m')
    (hf : ∀ a, m.outcome s = .ok a → Coincide may s (f a) (f' a)) :
    Coincide may s (m >>= f) (m' >>= f') := by
  have hl := run_bind m f s
  have hr := run_bind m' f' s
  rw [hm.left] at hl
  rw [hm.right] at hr
  cases ho : m.outcome s with
  | error e =>
    rw [ho] at hl hr
    refine coincide_of_run hl hr fun e' he => ?_
    cases he
    exact hm.fault e ho
  | ok a =>
    rw [ho] at hl hr
    have hc := hf a ho
    exact coincide_of_run (hl.trans hc.left) (hr.trans hc.right) hc.fault

/-- The outcome of a chain whose first link leaves the state as it is. -/
theorem outcome_bind {m m' : Resolving ε σ α} (hm : Coincide may s m m')
    (f : α → Resolving ε σ β) :
    (m >>= f).outcome s = m.outcome s >>= fun a => (f a).outcome s := by
  rw [outcome, run_bind, hm.left]
  cases m.outcome s <;> rfl

end Resolving

namespace Scope

open Resolving

variable {ε σ : Type} {may : ε → Prop} {s : σ}

/-- The scope with another way to look up what is referred to. -/
def withLookup (scope : Scope ε σ) (lookup : Reference → Resolving ε σ (Report Value)) :
    Scope ε σ :=
  { scope with source := { scope.source with lookup := lookup } }

variable {scope : Scope ε σ} {lookup : Reference → Resolving ε σ (Report Value)}

theorem coincide_lookupAll {source source' : DataSource ε σ}
    (h : ∀ r, Coincide may s (source.lookup r) (source'.lookup r)) (rs : List Reference) :
    ∀ (roots : Roots) (ds : Diagnostics),
      Coincide may s (lookupAll source roots ds rs) (lookupAll source' roots ds rs) := by
  induction rs with
  | nil => exact fun roots ds => coincide_pure _
  | cons r rs ih => exact fun roots ds => coincide_bind (h r) fun found _ => ih _ _

variable (scope) in
theorem coincide_eval (h : ∀ r, Coincide may s (scope.source.lookup r) (lookup r)) (e : Expr)
    (want : Ty) : Coincide may s (scope.eval e want) ((scope.withLookup lookup).eval e want) := by
  refine coincide_bind (coincide_lookupAll h _ _ _) fun roots _ => ?_
  by_cases hd : Diagnostics.hasErrors roots.diags
  · simp only [hd, if_true]
    exact coincide_pure _
  · simp only [hd]
    exact coincide_pure _

theorem coincide_evalLabels (h : ∀ r, Coincide may s (scope.source.lookup r) (lookup r))
    (labels : List Expr) :
    Coincide may s (scope.evalLabels labels) ((scope.withLookup lookup).evalLabels labels) := by
  induction labels with
  | nil => exact coincide_pure _
  | cons e es ih =>
    refine coincide_bind (coincide_eval scope h e .string) fun r _ => ?_
    refine coincide_bind ih fun rest _ => ?_
    split
    · exact coincide_pure _
    · exact coincide_pure _
    · exact coincide_pure _

variable {expand expand' : Body → Resolving ε σ (Report Body)}

theorem coincide_generate (h : ∀ r, Coincide may s (scope.source.lookup r) (lookup r))
    (hx : ∀ body, Coincide may s (expand body) (expand' body)) (b : Block) (type : String)
    (d : DynamicBlock) (es : List (Value × Value)) :
    Coincide may s (scope.generate expand b type d es)
      ((scope.withLookup lookup).generate expand' b type d es) := by
  induction es with
  | nil => exact coincide_pure _
  | cons e es ih =>
    refine coincide_bind (coincide_evalLabels h _) fun texts _ => ?_
    split
    · exact coincide_bind ih fun rest _ => coincide_pure _
    · refine coincide_bind (hx _) fun body _ => ?_
      exact coincide_bind ih fun rest _ => coincide_pure _

theorem coincide_expandDynamic (h : ∀ r, Coincide may s (scope.source.lookup r) (lookup r))
    (hx : ∀ body, Coincide may s (expand body) (expand' body)) (b : Block) (type : String) :
    Coincide may s (scope.expandDynamic expand b type)
      ((scope.withLookup lookup).expandDynamic expand' b type) := by
  unfold expandDynamic
  split
  · exact coincide_pure _
  · refine coincide_bind (coincide_eval scope h _ _) fun r _ => ?_
    split
    · exact coincide_pure _
    · exact coincide_bind (coincide_generate h hx _ _ _ _) fun blocks _ => coincide_pure _

theorem coincide_expandBlocks (h : ∀ r, Coincide may s (scope.source.lookup r) (lookup r))
    {expand expand' : Body → BodySchema → Resolving ε σ (Report Body)}
    (hx : ∀ body schema, Coincide may s (expand body schema) (expand' body schema))
    (schema : BodySchema) (blocks : List Block) :
    Coincide may s (scope.expandBlocks expand schema blocks)
      ((scope.withLookup lookup).expandBlocks expand' schema blocks) := by
  induction blocks with
  | nil => exact coincide_pure _
  | cons b bs ih =>
    simp only [expandBlocks]
    have done (r : Report (List Block)) :
        Coincide may s (pure r : Resolving ε σ (Report (List Block))) (pure r) := coincide_pure r
    have rest (first : Report (List Block)) := coincide_bind ih fun rest _ =>
      done ⟨first.result ++ rest.result, first.diags ++ rest.diags⟩
    split
    · exact rest _
    · split
      · exact coincide_bind (coincide_expandDynamic h (fun body => hx body _) _ _) fun first _ =>
          rest first
      · exact coincide_bind (hx _ _) fun body _ => rest _

theorem coincide_expandWithin (h : ∀ r, Coincide may s (scope.source.lookup r) (lookup r))
    (fuel : Nat) : ∀ (body : Body) (schema : BodySchema),
      Coincide may s (scope.expandWithin fuel body schema)
        ((scope.withLookup lookup).expandWithin fuel body schema) := by
  induction fuel with
  | zero => exact fun body schema => coincide_pure _
  | succ fuel ih =>
    intro body schema
    exact coincide_bind (coincide_expandBlocks h ih _ _) fun blocks _ => coincide_pure _

variable (scope) in
theorem coincide_expand (h : ∀ r, Coincide may s (scope.source.lookup r) (lookup r)) (body : Body)
    (schema : BodySchema) :
    Coincide may s (scope.expand body schema) ((scope.withLookup lookup).expand body schema) :=
  coincide_expandWithin h _ body schema

end Scope

end StaticConfig
