import StaticConfig.Proofs.Evaluation.Forms
import StaticConfig.Proofs.Evaluation.Operands

/-!
Two runs of one form of expression. When a coupling relates the values of the parts in both runs,
it relates the values of the whole. The runs may part where a value may be anything, so what is
carried through templates, keys and filters is how far the results so far may differ.
-/
namespace StaticConfig.Coupling

open Value Eval

variable {C : Coupling} {s : Setting} {F : Fragment}

def Tied (C : Coupling) (s : Setting) (e : Expr) : Prop :=
  ∀ env env' v w, C.Envs env env' → eval s env e = ⟨v, []⟩ → eval s env' e = ⟨w, []⟩ →
    C.Coupled v w

theorem Envs.of_rel {R : Value → Value → Prop} {env env' : Env}
    (h : ∀ name, Option.Rel R (env.lookup name) (env'.lookup name))
    (hR : ∀ {name v w}, env.lookup name = some v → env'.lookup name = some w → R v w →
      C.Coupled v w) : C.Envs env env' := by
  intro name
  have hrel := h name
  have hR := @hR name
  generalize env.lookup name = x at hrel hR ⊢
  generalize env'.lookup name = y at hrel hR ⊢
  cases hrel with
  | none => exact .none
  | some hvw => exact .some (hR rfl rfl hvw)

theorem Envs.fit_left {env env' : Env} (h : C.Envs env env') {name : String} {v : Value}
    (hv : env.lookup name = some v) : C.Fit v := by
  have hrel := h name
  rw [hv] at hrel
  generalize env'.lookup name = x at hrel
  cases hrel with
  | some h => exact h.2.1

theorem Envs.fit_right {env env' : Env} (h : C.Envs env env') {name : String} {v : Value}
    (hv : env'.lookup name = some v) : C.Fit v := by
  have hrel := h name
  rw [hv] at hrel
  generalize env.lookup name = x at hrel
  cases hrel with
  | some h => exact h.2.2

namespace Sound

/-- That values may differ in no mark follows from the runs one by one. -/
theorem tied (S : C.Sound s F) {e : Expr} (he : e.Within F)
    (h : ∀ env env' v w, C.Envs env env' → eval s env e = ⟨v, []⟩ → eval s env' e = ⟨w, []⟩ →
      C.rel v w) : C.Tied s e :=
  fun env env' v w henv hv hw => ⟨h env env' v w henv hv hw,
    S.fit he (fun _ _ => henv.fit_left) hv, S.fit he (fun _ _ => henv.fit_right) hw⟩

theorem tied_literal (S : C.Sound s F) {span : Span} {v : Value}
    (he : (Expr.literal span v).Within F) : C.Tied s (.literal span v) := by
  refine S.tied he fun env env' a b _ ha hb => ?_
  cases eval_literal_eq_clean.1 ha
  cases eval_literal_eq_clean.1 hb
  exact (S.literal he).1

theorem tied_parens {span : Span} {e : Expr} (h : C.Tied s e) : C.Tied s (.parens span e) := by
  intro env env' v w henv hv hw
  rw [eval_parens_eq_clean] at hv hw
  exact h env env' v w henv hv hw

theorem tied_traversal (S : C.Sound s F) {span : Span} {root : String} {steps : List Step}
    (he : (Expr.traversal span root steps).Within F) : C.Tied s (.traversal span root steps) := by
  intro env env' v w henv hv hw
  obtain ⟨a, ha, hv⟩ := eval_traversal_eq_clean.1 hv
  obtain ⟨b, hb, hw⟩ := eval_traversal_eq_clean.1 hw
  have hroot := henv root
  rw [ha, hb] at hroot
  cases hroot with
  | some hab => exact S.steps he hab hv hw

theorem tied_relative (S : C.Sound s F) {span : Span} {source : Expr} {steps : List Step}
    (he : ∀ st ∈ steps, st.Within F) (h : C.Tied s source) :
    C.Tied s (.relative span source steps) := by
  intro env env' v w henv hv hw
  obtain ⟨a, ha, hv⟩ := eval_relative_eq_clean.1 hv
  obtain ⟨b, hb, hw⟩ := eval_relative_eq_clean.1 hw
  exact S.steps he (h env env' a b henv ha hb) hv hw

theorem tied_index (S : C.Sound s F) {span : Span} {collection key : Expr}
    (hc : C.Tied s collection) (hk : C.Tied s key) : C.Tied s (.index span collection key) := by
  intro env env' v w henv hv hw
  obtain ⟨a, k, ha, hka, hv⟩ := eval_index_eq_clean.1 hv
  obtain ⟨b, k', hb, hkb, hw⟩ := eval_index_eq_clean.1 hw
  exact S.element (hc env env' a b henv ha hb) (hk env env' k k' henv hka hkb) hv hw

theorem tied_splat (S : C.Sound s F) {span : Span} {source : Expr} {each : List Step}
    (he : (Expr.splat span source each).Within F) (h : C.Tied s source) :
    C.Tied s (.splat span source each) := by
  refine S.tied he fun env env' v w henv hv hw => ?_
  obtain ⟨a, ha, hv⟩ := eval_splat_eq_clean.1 hv
  obtain ⟨b, hb, hw⟩ := eval_splat_eq_clean.1 hw
  exact S.splat he.2 (h env env' a b henv ha hb) hv hw

theorem tied_unary (S : C.Sound s F) {span : Span} {op : UnaryOp} {operand : Expr}
    (he : (Expr.unary span op operand).Within F) (h : C.Tied s operand) :
    C.Tied s (.unary span op operand) := by
  refine S.tied he fun env env' v w henv hv hw => ?_
  obtain ⟨a, o, ha, ho, rfl⟩ := eval_unary_eq_clean.1 hv
  obtain ⟨b, o', hb, ho', rfl⟩ := eval_unary_eq_clean.1 hw
  rcases S.bareView (h env env' a b henv ha hb) with hfree | ⟨hm, hm', halike⟩
  · exact S.rel_markIf hfree fun hk => Operator.isKnown_unary hk ho
  · rw [hm, hm']
    rw [Operator.unary_eq halike] at ho
    cases ho.symm.trans ho'
    exact S.leaf (Operator.isLeaf_unary ho)

theorem tied_binary (S : C.Sound s F) {span : Span} {op : BinaryOp} {lhs rhs : Expr}
    (he : (Expr.binary span op lhs rhs).Within F) (hl : C.Tied s lhs) (hr : C.Tied s rhs) :
    C.Tied s (.binary span op lhs rhs) := by
  refine S.tied he fun env env' v w henv hv hw => ?_
  obtain ⟨a, b, o, ha, hb, ho, rfl⟩ := eval_binary_eq_clean.1 hv
  obtain ⟨a', b', o', ha', hb', ho', rfl⟩ := eval_binary_eq_clean.1 hw
  have hlr := hl env env' a a' henv ha ha'
  have hrr := hr env env' b b' henv hb hb'
  have marked {m m' : Bool} (h : C.Free true m m') : C.rel (markIf m o) (markIf m' o') :=
    S.rel_markIf h nofun
  rcases S.marks hlr with hmarks | ⟨hma, hma'⟩
  · exact marked (Free.or_left (.inr hmarks))
  rcases S.marks hrr with hmarks | ⟨hmb, hmb'⟩
  · exact marked (Free.or_right (.inr hmarks))
  rw [hma, hma', hmb, hmb']
  rcases Operator.binary_cases (S.unmarkedView hlr hma) (S.unmarkedView hrr hmb)
    (S.equal hlr hrr hma hma' hmb hmb') ho ho' with hfree | rfl
  · exact S.of_free (.inl hfree)
  · exact S.leaf (Operator.isLeaf_binary ho)

theorem tied_lone {span : Span} {e : Expr} (h : C.Tied s e) :
    C.Tied s (.template span [.interp e]) := by
  intro env env' v w henv hv hw
  rw [eval_lone_eq_clean] at hv hw
  exact h env env' v w henv hv hw

end Sound

/-! A result that may be missing, with a mark. It is free to differ, or has no mark and agrees. -/

section Outcome

variable {α β : Type} {R : α → β → Prop}

def Outcome (C : Coupling) (R : α → β → Prop) (x : Option α × Bool) (y : Option β × Bool) :
    Prop :=
  C.Free x.1.isSome x.2 y.2 ∨ x.2 = false ∧ y.2 = false ∧ Option.Rel R x.1 y.1

/-- The value made of a result is unknown where the result is missing. -/
theorem Sound.rel_of_outcome (S : C.Sound s F) {x : Option α} {y : Option β} {m m' : Bool}
    {f : α → Value} {g : β → Value} {t : Ty} (h : C.Outcome R (x, m) (y, m'))
    (hfg : ∀ a b, R a b → C.rel (f a) (g b)) :
    C.rel (markIf m (x.elim (.unknown t) f)) (markIf m' (y.elim (.unknown t) g)) := by
  rcases h with hfree | ⟨rfl, rfl, hxy⟩
  · refine S.rel_markIf hfree fun h => ?_
    cases x with
    | none => rfl
    | some a => cases h
  · cases hxy with
    | none => exact S.leaf rfl
    | some hab => exact hfg _ _ hab

end Outcome

def TiedParts (C : Coupling) (s : Setting) (parts : List TemplatePart) : Prop :=
  ∀ env env' span x y, C.Envs env env' → Gives (evalParts s env span parts) x →
    Gives (evalParts s env' span parts) y → C.Outcome Eq x y

namespace Sound

theorem option_refl {α : Type} {x : Option α} : Option.Rel Eq x x := by
  cases x with
  | none => exact .none
  | some a => exact .some rfl

theorem tiedParts_nil : C.TiedParts s [] := by
  intro env env' span x y _ hx hy
  cases hx
  cases hy
  exact .inr ⟨rfl, rfl, .some rfl⟩

theorem tiedParts_text {t : String} {parts : List TemplatePart} (h : C.TiedParts s parts) :
    C.TiedParts s (.text t :: parts) := by
  intro env env' span x y henv hx hy
  obtain ⟨a, m, ha, rfl⟩ := gives_parts_text.1 hx
  obtain ⟨b, m', hb, rfl⟩ := gives_parts_text.1 hy
  rcases h env env' span _ _ henv ha hb with hfree | ⟨hm, hm', hab⟩
  · refine .inl (hfree.weaken (fun h => ?_) id id)
    rw [Option.isSome_map, h]
  · refine .inr ⟨hm, hm', ?_⟩
    cases hab with
    | none => exact .none
    | some h => exact .some (congrArg _ h)

theorem interpolated_unknown {v : Value} {place span : Span} {x : Option String}
    (h : v.isKnown = false) (hx : interpolated v.bare place span = .ok x) : x = none := by
  obtain ⟨t, ht⟩ := bare_eq_unknown v h
  rw [ht] at hx
  cases hx
  rfl

theorem tiedParts_interp (S : C.Sound s F) {e : Expr} {parts : List TemplatePart}
    (he : C.Tied s e) (h : C.TiedParts s parts) : C.TiedParts s (.interp e :: parts) := by
  intro env env' span x y henv hx hy
  obtain ⟨a, ha, t, ht, rest, m, hrest, rfl⟩ := gives_parts_interp.1 hx
  obtain ⟨b, hb, t', ht', rest', m', hrest', rfl⟩ := gives_parts_interp.1 hy
  rcases S.bareView (he env env' a b henv ha hb) with hfree | ⟨hma, hmb, halike⟩
  · refine .inl (hfree.or_left.weaken (fun hk => ?_) id id)
    rw [interpolated_unknown hk ht]
    rfl
  rw [halike.interpolated_eq] at ht
  cases ht.symm.trans ht'
  rw [hma, hmb, Bool.false_or, Bool.false_or]
  rcases h env env' span _ _ henv hrest hrest' with hfree | ⟨hm, hm', hab⟩
  · refine .inl (hfree.weaken (fun h => ?_) id id)
    cases rest with
    | none => cases t <;> rfl
    | some r => cases h
  · refine .inr ⟨hm, hm', ?_⟩
    cases hab with
    | none => cases t <;> exact .none
    | some h =>
      cases t
      · exact .none
      · exact .some (congrArg _ h)

theorem tied_template (S : C.Sound s F) {span : Span} {parts : List TemplatePart}
    (he : (Expr.template span parts).Within F) (hlone : ∀ e, parts = [.interp e] → C.Tied s e)
    (h : C.TiedParts s parts) : C.Tied s (.template span parts) := by
  by_cases hn : ∃ e, parts = [.interp e]
  · obtain ⟨e, rfl⟩ := hn
    exact tied_lone (hlone e rfl)
  have hne : ∀ e, parts ≠ [.interp e] := fun e h => hn ⟨e, h⟩
  refine S.tied he fun env env' v w henv hv hw => ?_
  obtain ⟨text, m, hx, rfl⟩ := (eval_template_eq_clean hne).1 hv
  obtain ⟨text', m', hy, rfl⟩ := (eval_template_eq_clean hne).1 hw
  refine S.rel_of_outcome (h env env' span _ _ henv hx hy) ?_
  rintro a _ rfl
  exact S.leaf rfl

end Sound

def TiedFilter (C : Coupling) (s : Setting) (cond : Option Expr) : Prop :=
  ∀ env env' x y, C.Envs env env' → Gives (evalFilter s env cond) x →
    Gives (evalFilter s env' cond) y → C.Outcome Eq x y

def TiedKey (C : Coupling) (s : Setting) (key : Option Expr) : Prop :=
  ∀ env env' x y, C.Envs env env' → Gives (evalKey s env key) x →
    Gives (evalKey s env' key) y → C.Outcome Eq x y

namespace Sound

theorem truth_unknown {v : Value} {d : Option Bool} (h : v.isKnown = false)
    (hd : truth v.bare = .ok d) : d = none := by
  obtain ⟨t, ht⟩ := bare_eq_unknown v h
  rw [truth, ht] at hd
  obtain ⟨b, hb, rfl⟩ := Except.map_eq_ok.1 hd
  cases t <;> cases hb <;> rfl

theorem tiedFilter_none : C.TiedFilter s none := by
  intro env env' x y _ hx hy
  cases hx
  cases hy
  exact .inr ⟨rfl, rfl, .some rfl⟩

theorem tiedFilter_some (S : C.Sound s F) {cond : Expr} (h : C.Tied s cond) :
    C.TiedFilter s (some cond) := by
  intro env env' x y henv hx hy
  obtain ⟨a, d, ha, _, hd, rfl⟩ := gives_filter.1 hx
  obtain ⟨b, d', hb, _, hd', rfl⟩ := gives_filter.1 hy
  rcases S.bareView (h env env' a b henv ha hb) with hfree | ⟨hm, hm', halike⟩
  · refine .inl (hfree.weaken (fun hk => ?_) id id)
    rw [truth_unknown hk hd]
    rfl
  · rw [halike.truth_eq] at hd
    cases hd.symm.trans hd'
    exact .inr ⟨hm, hm', option_refl⟩

theorem keyText_unknown {v : Value} {span : Span} {null : EvalFault}
    {wrong : ConversionError → EvalFault} {x : Option String} (h : v.isKnown = false)
    (hx : keyText v.bare span null wrong = .ok x) : x = none := by
  obtain ⟨t, ht⟩ := bare_eq_unknown v h
  rw [ht] at hx
  cases hx
  rfl

theorem tiedKey_none : C.TiedKey s none := by
  intro env env' x y _ hx hy
  cases hx
  cases hy
  exact .inr ⟨rfl, rfl, .some rfl⟩

theorem tiedKey_some (S : C.Sound s F) {key : Expr} (h : C.Tied s key) :
    C.TiedKey s (some key) := by
  intro env env' x y henv hx hy
  obtain ⟨a, t, ha, ht, rfl⟩ := gives_key.1 hx
  obtain ⟨b, t', hb, ht', rfl⟩ := gives_key.1 hy
  rcases S.bareView (h env env' a b henv ha hb) with hfree | ⟨hm, hm', halike⟩
  · refine .inl (hfree.weaken (fun hk => ?_) id id)
    rw [keyText_unknown hk ht]
    rfl
  · rw [halike.keyText_eq] at ht
    cases ht.symm.trans ht'
    exact .inr ⟨hm, hm', option_refl⟩

end Sound

def TiedAll (C : Coupling) (s : Setting) (es : List Expr) : Prop :=
  ∀ env env' vs ws, C.Envs env env' → evalAll s env es = ⟨vs, []⟩ → evalAll s env' es = ⟨ws, []⟩ →
    List.Forall₂ C.Coupled vs ws

/-- Objects so far, with whether all keys are known and whether a key is marked. -/
def ItemsOutcome (C : Coupling) (x y : Fields Value × Bool × Bool) : Prop :=
  C.Free x.2.1 x.2.2 y.2.2 ∨
    x.2.2 = false ∧ y.2.2 = false ∧ x.2.1 = y.2.1 ∧ Fields.Related C.Coupled x.1 y.1

def TiedItems (C : Coupling) (s : Setting) (items : List (ObjectKey × Expr)) : Prop :=
  ∀ env env' as bs x y, C.Envs env env' → Fields.Related C.Coupled as bs →
    Gives (evalItems s env as items) x → Gives (evalItems s env' bs items) y → C.ItemsOutcome x y

namespace Sound

theorem tiedAll_nil : C.TiedAll s [] := by
  intro env env' vs ws _ hvs hws
  cases hvs
  cases hws
  exact .nil

theorem tiedAll_cons {e : Expr} {es : List Expr} (h : C.Tied s e) (hs : C.TiedAll s es) :
    C.TiedAll s (e :: es) := by
  intro env env' vs ws henv hvs hws
  obtain ⟨v, vs', hv, hvs', rfl⟩ := evalAll_cons_eq_clean.1 hvs
  obtain ⟨w, ws', hw, hws', rfl⟩ := evalAll_cons_eq_clean.1 hws
  exact .cons (h env env' v w henv hv hw) (hs env env' vs' ws' henv hvs' hws')

theorem tied_tuple (S : C.Sound s F) {span : Span} {items : List Expr}
    (he : (Expr.tuple span items).Within F) (h : C.TiedAll s items) :
    C.Tied s (.tuple span items) := by
  refine S.tied he fun env env' v w henv hv hw => ?_
  obtain ⟨vs, hvs, rfl⟩ := eval_tuple_eq_clean.1 hv
  obtain ⟨ws, hws, rfl⟩ := eval_tuple_eq_clean.1 hw
  exact S.tuple (h env env' vs ws henv hvs hws)

theorem tiedItems_nil : C.TiedItems s [] := by
  intro env env' as bs x y _ hab hx hy
  cases hx
  cases hy
  exact .inr ⟨rfl, rfl, rfl, hab⟩

theorem tiedItems_name {span : Span} {name : String} {value : Expr}
    {items : List (ObjectKey × Expr)} (h : C.Tied s value) (hs : C.TiedItems s items) :
    C.TiedItems s ((.name span name, value) :: items) := by
  intro env env' as bs x y henv hab hx hy
  obtain ⟨v, hv, hx⟩ := gives_items_name.1 hx
  obtain ⟨w, hw, hy⟩ := gives_items_name.1 hy
  exact hs env env' _ _ x y henv (hab.insert name (h env env' v w henv hv hw)) hx hy

theorem tiedItems_expr (S : C.Sound s F) {key value : Expr} {items : List (ObjectKey × Expr)}
    (hk : C.Tied s key) (h : C.Tied s value) (hs : C.TiedItems s items) :
    C.TiedItems s ((.expr key, value) :: items) := by
  intro env env' as bs x y henv hab hx hy
  obtain ⟨k, t, attrs, known, m, hka, ht, rfl, hopen, hnamed⟩ := gives_items_expr hx
  obtain ⟨k', t', attrs', known', m', hkb, ht', rfl, hopen', hnamed'⟩ := gives_items_expr hy
  rcases S.bareView (hk env env' k k' henv hka hkb) with hfree | ⟨hm, hm', halike⟩
  · refine .inl (hfree.or_left.weaken (fun h => ?_) id id)
    rw [keyText_unknown h ht]
    exact Bool.and_false _
  rw [halike.keyText_eq] at ht
  cases ht.symm.trans ht'
  have hrest : C.ItemsOutcome (attrs, known, m) (attrs', known', m') := by
    cases t with
    | none => exact hs env env' as bs _ _ henv hab (hopen rfl) (hopen' rfl)
    | some name =>
      obtain ⟨v, hv, hrest⟩ := hnamed name rfl
      obtain ⟨w, hw, hrest'⟩ := hnamed' name rfl
      exact hs env env' _ _ _ _ henv (hab.insert name (h env env' v w henv hv hw)) hrest hrest'
  rw [hm, hm', Bool.false_or, Bool.false_or]
  rcases hrest with hfree | ⟨rfl, rfl, rfl, hattrs⟩
  · refine .inl (hfree.weaken (fun h => ?_) id id)
    exact (congrArg (· && t.isSome) h).trans (Bool.false_and _)
  · exact .inr ⟨rfl, rfl, rfl, hattrs⟩

theorem tied_object (S : C.Sound s F) {span : Span} {items : List (ObjectKey × Expr)}
    (he : (Expr.object span items).Within F) (h : C.TiedItems s items) :
    C.Tied s (.object span items) := by
  refine S.tied he fun env env' v w henv hv hw => ?_
  obtain ⟨attrs, known, m, hx, rfl⟩ := eval_object_eq_clean.1 hv
  obtain ⟨attrs', known', m', hy, rfl⟩ := eval_object_eq_clean.1 hw
  rcases h env env' [] [] _ _ henv .nil hx hy with hfree | ⟨rfl, rfl, rfl, hattrs⟩
  · refine S.rel_markIf hfree ?_
    rintro rfl
    rfl
  · cases known with
    | true => exact S.object hattrs
    | false => exact S.leaf rfl

theorem expandLast_cases (S : C.Sound s F) (hc : ¬ C.marks) {span : Span} {vs ws : List Value}
    (h : List.Forall₂ C.Coupled vs ws) {x y : Option (List Value)}
    (hx : expandLast span vs = .ok x) (hy : expandLast span ws = .ok y) :
    (C.unknowns ∧ x = none) ∨ (Option.Rel (List.Forall₂ C.Coupled) x y ∧
      (x = none → vs.getLast?.any isMarked = false ∧ ws.getLast?.any isMarked = false)) := by
  induction h generalizing x y with
  | nil =>
    cases hx
    cases hy
    exact .inr ⟨.some .nil, fun h => nomatch h⟩
  | @cons a b as bs hab hs ih =>
    cases hs with
    | nil =>
      rcases S.view hab with (⟨hu, hk⟩ | ⟨hm, _⟩) | halike
      · obtain ⟨t, rfl⟩ := eq_unknown hk (hab.2.1 (S.unmarked hu))
        cases hx
        exact .inl ⟨hu, rfl⟩
      · exact absurd hm hc
      · have items {vs ws : List Value} (h : List.Forall₂ C.Coupled vs ws) :
            List.Forall₂ C.Coupled (vs.map (markIf false)) (ws.map (markIf false)) := by
          rwa [show markIf false = id from rfl, List.map_id, List.map_id]
        cases halike with
        | unknown =>
          cases hx
          cases hy
          exact .inr ⟨.none, fun _ => ⟨rfl, rfl⟩⟩
        | list h =>
          cases hx
          cases hy
          exact .inr ⟨.some (items h), fun h => nomatch h⟩
        | set h =>
          cases hx
          cases hy
          exact .inr ⟨.some (items h), fun h => nomatch h⟩
        | tuple h =>
          cases hx
          cases hy
          exact .inr ⟨.some (items h), fun h => nomatch h⟩
        | _ => cases hx
    | @cons a' b' as bs hab' hs =>
      obtain ⟨x', hx', hx⟩ := Except.bind_eq_ok.1 hx
      obtain ⟨y', hy', hy⟩ := Except.bind_eq_ok.1 hy
      rw [List.getLast?_cons_cons, List.getLast?_cons_cons]
      rcases ih hx' hy' with ⟨hu, rfl⟩ | ⟨hxy, hlast⟩
      · cases hx
        exact .inl ⟨hu, rfl⟩
      · cases hxy with
        | none =>
          cases hx
          cases hy
          exact .inr ⟨.none, hlast⟩
        | some h =>
          cases hx
          cases hy
          exact .inr ⟨.some (.cons hab h), fun h => nomatch h⟩

theorem tied_call (S : C.Sound s F) {span : Span} {name : String} {args : List Expr}
    {expand : Bool} (he : (Expr.call span name args expand).Within F) (h : C.TiedAll s args) :
    C.Tied s (.call span name args expand) := by
  refine S.tied he fun env env' v w henv hv hw => ?_
  cases expand with
  | false =>
    obtain ⟨vs, hvs, hv⟩ := eval_call_eq_clean.1 hv
    obtain ⟨ws, hws, hw⟩ := eval_call_eq_clean.1 hw
    exact S.call he.1 (h env env' vs ws henv hvs hws) hv hw
  | true =>
    obtain ⟨vs, x, hvs, hx, hv⟩ := eval_expanded_eq_clean.1 hv
    obtain ⟨ws, y, hws, hy, hw⟩ := eval_expanded_eq_clean.1 hw
    rcases S.expandLast_cases (S.expand he.1) (h env env' vs ws henv hvs hws) hx hy with
      ⟨hu, rfl⟩ | ⟨hxy, hlast⟩
    · rcases hv with ⟨_, rfl⟩ | ⟨_, hx, _⟩
      · exact S.of_free (.inl ⟨hu, isKnown_markIf _ _⟩)
      · cases hx
    · cases hxy with
      | none =>
        obtain ⟨hlast, hlast'⟩ := hlast rfl
        rcases hv with ⟨_, rfl⟩ | ⟨_, hx, _⟩
        · rcases hw with ⟨_, rfl⟩ | ⟨_, hy, _⟩
          · rw [hlast, hlast']
            exact S.leaf rfl
          · cases hy
        · cases hx
      | some hargs =>
        rcases hv with ⟨hx, _⟩ | ⟨vs', hx, hv⟩
        · cases hx
        · rcases hw with ⟨hy, _⟩ | ⟨ws', hy, hw⟩
          · cases hy
          · cases hx
            cases hy
            exact S.call he.1 hargs hv hw

end Sound

end StaticConfig.Coupling
