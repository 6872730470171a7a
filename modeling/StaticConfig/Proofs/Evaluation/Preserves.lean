import StaticConfig.Proofs.Builtin.KeepsLibrary
import StaticConfig.Proofs.Evaluation.Built
import StaticConfig.Proofs.Evaluation.Raised
import StaticConfig.Proofs.Reading.Parsed

/-!
An evaluation that reports nothing keeps a property of all parts of values: where the names stand
for values with the property, and the values that are written in an expression have it, the
expression has a value with it. The definitions that a function reads from a text are evaluated
like any expression, so for the functions the induction is on how deep such texts are nested.
-/
namespace StaticConfig

open Value Builtin StaticConfig.Except

/-- The names stand for values with the property. -/
def Env.All (P : Value → Prop) (env : Env) : Prop :=
  ∀ name v, env.lookup name = some v → P v

/-- Called with values with the property, the functions have such results, if any. -/
def Library.Keeps (P : Value → Prop) (library : Library) : Prop :=
  ∀ site name f args v, library site name = some f → (∀ a ∈ args, P a) →
    f.call false args = .ok v → P v

variable {P : Value → Prop}

namespace Env

variable {env : Env}

theorem all_nil : Env.All P [] :=
  fun _ _ h => nomatch h

theorem All.cons (h : env.All P) {name : String} {v : Value} (hv : P v) :
    Env.All P ((name, v) :: env) := by
  intro other w hw
  rw [List.lookup_cons] at hw
  split at hw
  · cases hw
    exact hv
  · exact h other w hw

theorem All.bindItem (h : env.All P) {keyVar : Option String} {valueVar : String}
    {pair : Value × Value} (hpair : P pair.1 ∧ P pair.2) :
    Env.All P (Eval.bindItem keyVar valueVar pair env) := by
  cases keyVar with
  | none => exact h.cons hpair.2
  | some k => exact (h.cons hpair.1).cons hpair.2

end Env

namespace Eval

/-- A value that is kept has the property. An unknown item makes the whole unknown. -/
def Item.Has (P : Value → Prop) : Item → Prop
  | skip => True
  | unknown => ∀ u, P (.unknown u)
  | keep _ value => P value

/-- What is there has the second property. Where nothing is there, unknown values have the first. -/
def OrUnknown {α : Type} (P : Value → Prop) (Q : α → Prop) : Option α → Prop
  | none => ∀ u, P (.unknown u)
  | some a => Q a

theorem forall_intoGroup {v : Value} {groups : Fields (List Value)} {key : String}
    (hgroups : ∀ g ∈ groups, ∀ u ∈ g.2, P u) (hv : P v) :
    ∀ g ∈ intoGroup key v groups, ∀ u ∈ g.2, P u := by
  intro g hg u hu
  rcases Fields.mem_insert hg with rfl | hg
  · rcases List.mem_append.1 hu with hu | hu
    · cases hprior : Fields.get? key groups with
      | none =>
        rw [hprior] at hu
        cases hu
      | some prior =>
        rw [hprior] at hu
        exact hgroups _ (Fields.mem_of_get? hprior) u hu
    · cases List.mem_singleton.1 hu
      exact hv
  · exact hgroups g hg u hu

theorem forall_foldl_intoGroup {entries : Fields Value} {groups : Fields (List Value)}
    (hentries : ∀ e ∈ entries, P e.2) (hgroups : ∀ g ∈ groups, ∀ u ∈ g.2, P u) :
    ∀ g ∈ entries.foldl (fun acc e => intoGroup e.1 e.2 acc) groups, ∀ u ∈ g.2, P u := by
  induction entries generalizing groups with
  | nil => exact hgroups
  | cons e entries ih =>
    obtain ⟨he, hentries⟩ := List.forall_mem_cons.1 hentries
    exact ih hentries (forall_intoGroup hgroups he)

theorem has_gather {unique : Bool} {keySpan : Span} {run : Value × Value → Eval (Item × Bool)}
    {pairs : List (Value × Value)} {kept : List (Option String × Value)} {marked : Bool}
    {x : Option (List (Option String × Value)) × Bool}
    (hrun : ∀ p ∈ pairs, ∀ item m, Gives (run p) (item, m) → item.Has P)
    (hkept : ∀ e ∈ kept, P e.2) (h : Gives (gather unique keySpan run kept marked pairs) x) :
    OrUnknown P (fun all => ∀ e ∈ all, P e.2) x.1 := by
  induction pairs generalizing kept marked with
  | nil =>
    cases gives_pure.1 h
    exact hkept
  | cons p pairs ih =>
    obtain ⟨hp, hpairs⟩ := List.forall_mem_cons.1 hrun
    obtain ⟨item, m, hitem, hunknown, hskip, hkeep⟩ := gives_gather_cons h
    have hhas := hp item m hitem
    cases item with
    | skip => exact ih hpairs hkept (hskip rfl)
    | unknown =>
      cases hunknown rfl
      exact hhas
    | keep key value =>
      refine ih hpairs (fun e he => ?_) (hkeep key value rfl)
      rcases List.mem_append.1 he with he | he
      · exact hkept e he
      · cases List.mem_singleton.1 he
        exact hhas

theorem has_forEntry {s : Setting} {env : Env} {keyVar : Option String} {valueVar : String}
    {key cond : Option Expr} {value : Expr} {pair : Value × Value} {item : Item} {m : Bool}
    (hfilter : ∀ x, Gives (evalFilter s (bindItem keyVar valueVar pair env) cond) x →
      x.1 = none → ∀ u, P (.unknown u))
    (hkey : ∀ x, Gives (evalKey s (bindItem keyVar valueVar pair env) key) x →
      x.1 = none → ∀ u, P (.unknown u))
    (hvalue : ∀ v, eval s (bindItem keyVar valueVar pair env) value = ⟨v, []⟩ → P v)
    (h : Gives (forEntry s env keyVar valueVar key value cond pair) (item, m)) : item.Has P := by
  obtain ⟨decision, n, hdecision, -, hopen, hskip, hgoes⟩ := gives_forEntry h
  rcases decision with _ | _ | _
  · cases hopen rfl
    exact hfilter _ hdecision rfl
  · cases hskip rfl
    trivial
  · obtain ⟨text, n', htext, -, hopen, hkeep⟩ := hgoes rfl
    cases text with
    | none =>
      cases hopen rfl
      exact hkey _ htext rfl
    | some k =>
      obtain ⟨v, hv, hitem⟩ := hkeep k rfl
      cases hitem
      exact hvalue v hv

/-! Nothing but errors is reported, so an evaluation without errors reports nothing. -/

theorem isError_of_mem_diags {s : Setting} {env : Env} {e : Expr} {d : Diagnostic}
    (h : d ∈ (eval s env e).diags) : d.isError = true := by
  obtain ⟨err, -, rfl⟩ := tells_eval e env d h
  rfl

theorem eq_of_no_errors {s : Setting} {env : Env} {e : Expr}
    (h : Diagnostics.errors (eval s env e).diags = []) :
    eval s env e = ⟨(eval s env e).result, []⟩ := by
  refine Report.eq_of_diags rfl ?_
  rw [Diagnostics.errors, List.filter_eq_nil_iff] at h
  exact List.eq_nil_iff_forall_not_mem.2 fun d hd => h d hd (isError_of_mem_diags hd)

end Eval

namespace Value.Markable

open Eval

variable {library : Library} {env : Env} {v : Value} {span : Span}

/-! What is read off values is open only where they are unknown. -/

theorem unknown_of_interpolated (H : Markable P) {place : Span} (hv : P v)
    (h : interpolated v.bare place span = .ok none) (u : Ty) : P (.unknown u) := by
  unfold interpolated at h
  split at h
  · cases h
  split at h
  · next hk => exact H.unknown_of_isKnown _ (H.bare v hv) (by simpa using hk) u
  · split at h <;> cases h

theorem unknown_of_keyText (H : Markable P) {null : EvalFault}
    {wrong : ConversionError → EvalFault} (hv : P v) (h : keyText v.bare span null wrong = .ok none)
    (u : Ty) : P (.unknown u) := by
  unfold keyText at h
  split at h
  · cases h
  split at h
  · next hk => exact H.unknown_of_isKnown _ (H.bare v hv) (by simpa using hk) u
  · split at h <;> cases h

theorem unknown_of_truth (H : Markable P) (hv : P v) (hnull : v.bare.isNull = false)
    (h : truth v.bare = .ok none) (u : Ty) : P (.unknown u) := by
  obtain ⟨r, hconvert, hnone⟩ := map_eq_ok.1 h
  have hr := H.convert _ (H.bare v hv) hconvert
  cases ofPrimitive_of_convert rfl hnull hconvert with
  | bool b => cases hnone
  | unknown t => exact H.unknown u hr

theorem expandLast (H : Markable P) : ∀ {args : List Value} {expanded : Option (List Value)},
    (∀ v ∈ args, P v) → expandLast span args = .ok expanded →
      OrUnknown P (fun vs => ∀ v ∈ vs, P v) expanded
  | [], _, _, h => by
    cases h
    exact List.forall_mem_nil _
  | [last], _, hargs, h => by
    have hlast := H.unmarked (hargs last List.mem_cons_self)
    have hmarked {items : List Value} (hitems : ∀ x ∈ items, P x) :
        ∀ v ∈ items.map (Value.markIf last.isMarked), P v := by
      intro v hv
      obtain ⟨u, hu, rfl⟩ := List.mem_map.1 hv
      exact H.markIf _ (hitems u hu)
    simp only [Eval.expandLast] at h
    generalize last.unmarked = u at hlast h
    cases u with
    | list e items =>
      cases h
      exact hmarked (H.list.1 hlast)
    | set e items =>
      cases h
      exact hmarked (H.set.1 hlast)
    | tuple items =>
      cases h
      exact hmarked (H.tuple.1 hlast)
    | unknown t =>
      cases h
      exact fun u => H.unknown u hlast
    | _ => cases h
  | v :: w :: rest, _, hargs, h => by
    obtain ⟨hv, hrest⟩ := List.forall_mem_cons.1 hargs
    obtain ⟨more, hmore, h⟩ := bind_eq_ok.1 h
    have hmore := H.expandLast hrest hmore
    cases more with
    | none =>
      cases h
      exact hmore
    | some vs =>
      cases h
      exact List.forall_mem_cons.2 ⟨hv, hmore⟩

/-! Collections and conditionals. -/

theorem assemble (H : Markable P) {kept : List (Option String × Value)} (h : ∀ e ∈ kept, P e.2)
    (keyed group : Bool) : P (assemble keyed group kept) := by
  have hnamed : ∀ e ∈ kept.map fun e => (e.1.getD "", e.2), P e.2 := by
    intro e he
    obtain ⟨e', he', rfl⟩ := List.mem_map.1 he
    exact h e' he'
  cases keyed with
  | false =>
    refine H.tuple.2 fun v hv => ?_
    obtain ⟨e, he, rfl⟩ := List.mem_map.1 hv
    exact h e he
  | true =>
    cases group with
    | false => exact H.object.2 fun e he => hnamed e (Fields.mem_ofList he)
    | true =>
      refine H.object.2 fun e he => ?_
      obtain ⟨g, hg, rfl⟩ := List.mem_map.1 he
      exact H.tuple.2 (forall_foldl_intoGroup hnamed (List.forall_mem_nil _) g hg)

theorem chooseBranch (H : Markable P) {cond : Value} {condSpan : Span} {yes no : Report Value}
    (hcond : P cond) (hyes : yes.diags = [] → P yes.result) (hno : no.diags = [] → P no.result)
    (h : Gives (chooseBranch cond condSpan span yes no) v) : P v := by
  have hconverted {u : Value} (hu : P u) (t : Ty) : P ((u.convert? t).getD u) := by
    cases hconvert : u.convert? t with
    | none => exact hu
    | some r => exact H.convert u hu (convert?_eq_some_iff.1 hconvert)
  obtain ⟨d, t, hnull, hd, -, hopen, htaken⟩ := gives_chooseBranch h
  cases d with
  | none =>
    obtain ⟨-, -, rfl⟩ := hopen rfl
    exact H.markIf _ (H.unknown_of_truth hcond hnull hd t)
  | some b =>
    obtain ⟨hclean, rfl⟩ := htaken b rfl
    refine H.markIf _ (hconverted ?_ t)
    cases b with
    | true => exact hyes hclean
    | false => exact hno hclean

theorem callNamed (H : library.Keeps P) {name : String} {args : List Value}
    (hargs : ∀ a ∈ args, P a) (h : callNamed ⟨library, false⟩ name args span = .ok v) : P v := by
  obtain ⟨f, hf, hcall⟩ := callNamed_eq_ok h
  exact H span name f args v hf hargs hcall

theorem template (H : Markable P) {s : Setting} {parts : List TemplatePart}
    (hparts : ∀ e, parts ≠ [.interp e])
    (hopen : ∀ x, Gives (evalParts s env span parts) x → x.1 = none → ∀ u, P (.unknown u))
    (h : Eval.eval s env (.template span parts) = ⟨v, []⟩) : P v := by
  obtain ⟨text, m, htext, rfl⟩ := (eval_template_eq_clean hparts).1 h
  refine H.markIf m ?_
  cases text with
  | none => exact hopen _ htext rfl .string
  | some t => exact H.string t

mutual

/-- An evaluation that reports nothing has a result with the property. -/
theorem eval (H : Markable P) (hlib : library.Keeps P) : ∀ (e : Expr) {env : Env} {v : Value},
    e.Writes P → env.All P → Eval.eval ⟨library, false⟩ env e = ⟨v, []⟩ → P v
  | .literal _ _, _, _, he, _, h => by
    cases eval_literal_eq_clean.1 h
    exact Expr.writes_literal.1 he
  | .parens _ inner, _, _, he, henv, h =>
    H.eval hlib inner (Expr.writes_parens.1 he) henv (eval_parens_eq_clean.1 h)
  -- A lone interpolation is evaluated differently.
  | .template _ [.interp inner], _, _, he, henv, h =>
    H.eval hlib inner (Expr.writes_template.1 he inner List.mem_cons_self) henv
      (eval_lone_eq_clean.1 h)
  | .template span [], _, _, he, henv, h =>
    H.template (by simp) (fun _ => H.evalParts hlib [] (Expr.writes_template.1 he) henv) h
  | .template span (.text text :: parts), _, _, he, henv, h =>
    H.template (by simp)
      (fun _ => H.evalParts hlib (.text text :: parts) (Expr.writes_template.1 he) henv) h
  | .template span (.interp inner :: part :: parts), _, _, he, henv, h =>
    H.template (by simp)
      (fun _ => H.evalParts hlib (.interp inner :: part :: parts) (Expr.writes_template.1 he)
        henv) h
  | .traversal _ root steps, _, _, he, henv, h => by
    obtain ⟨u, hu, hsteps⟩ := eval_traversal_eq_clean.1 h
    exact H.steps (henv root u hu) (Expr.writes_traversal.1 he) hsteps
  | .relative _ source steps, _, _, he, henv, h => by
    obtain ⟨hsource, hwrites⟩ := Expr.writes_relative.1 he
    obtain ⟨u, hu, hsteps⟩ := eval_relative_eq_clean.1 h
    exact H.steps (H.eval hlib source hsource henv hu) hwrites hsteps
  | .index _ collection key, _, _, he, henv, h => by
    obtain ⟨hcollection, hkey⟩ := Expr.writes_index.1 he
    obtain ⟨c, k, hc, hk, helement⟩ := eval_index_eq_clean.1 h
    exact H.element (H.eval hlib collection hcollection henv hc) (H.eval hlib key hkey henv hk)
      helement
  | .splat _ source each, _, _, he, henv, h => by
    obtain ⟨hsource, hwrites⟩ := Expr.writes_splat.1 he
    obtain ⟨u, hu, hsplat⟩ := eval_splat_eq_clean.1 h
    exact H.splat (H.eval hlib source hsource henv hu) hwrites hsplat
  | .tuple _ items, _, _, he, henv, h => by
    obtain ⟨vs, hvs, rfl⟩ := eval_tuple_eq_clean.1 h
    exact H.tuple.2 (H.evalAll hlib items (Expr.writes_tuple.1 he) henv hvs)
  | .object _ items, _, _, he, henv, h => by
    obtain ⟨attrs, known, m, hitems, rfl⟩ := eval_object_eq_clean.1 h
    obtain ⟨hopen, hattrs⟩ := H.evalItems hlib items (Expr.writes_object.1 he) henv
      (List.forall_mem_nil _) hitems
    refine H.markIf m ?_
    cases known with
    | false => exact hopen rfl .dynamic
    | true => exact H.object.2 hattrs
  | .call _ name args false, _, _, he, henv, h => by
    obtain ⟨vs, hvs, hcall⟩ := eval_call_eq_clean.1 h
    exact callNamed hlib (H.evalAll hlib args (Expr.writes_call.1 he) henv hvs) hcall
  | .call span name args true, _, _, he, henv, h => by
    obtain ⟨vs, expanded, hvs, hexpand, hcall⟩ := eval_expanded_eq_clean.1 h
    have hall := H.expandLast (H.evalAll hlib args (Expr.writes_call.1 he) henv hvs) hexpand
    rcases hcall with ⟨rfl, rfl⟩ | ⟨all, rfl, hcall⟩
    · exact H.markIf _ (hall .dynamic)
    · exact callNamed hlib hall hcall
  | .unary _ op operand, _, _, he, henv, h => by
    obtain ⟨u, o, hu, ho, rfl⟩ := eval_unary_eq_clean.1 h
    exact H.markIf _ (H.unary (H.eval hlib operand (Expr.writes_unary.1 he) henv hu) ho)
  | .binary _ op lhs rhs, _, _, he, henv, h => by
    obtain ⟨hlhs, hrhs⟩ := Expr.writes_binary.1 he
    obtain ⟨l, r, o, hl, hr, ho, rfl⟩ := eval_binary_eq_clean.1 h
    exact H.markIf _
      (H.binary (H.eval hlib lhs hlhs henv hl) (H.eval hlib rhs hrhs henv hr) ho)
  | .conditional _ cond yes no, _, _, he, henv, h => by
    obtain ⟨hcond, hyes, hno⟩ := Expr.writes_conditional.1 he
    obtain ⟨c, hc, hchoice⟩ := eval_conditional_eq_clean.1 h
    exact H.chooseBranch (H.eval hlib cond hcond henv hc)
      (fun hd => H.eval hlib yes hyes henv (Report.eq_of_diags rfl hd))
      (fun hd => H.eval hlib no hno henv (Report.eq_of_diags rfl hd)) hchoice
  | .forEach _ keyVar valueVar collection key value cond group, env, _, he, henv, h => by
    obtain ⟨hcollection, hkey, hvalue, hcond⟩ := Expr.writes_forEach.1 he
    obtain ⟨c, hc, hrounds⟩ := eval_forEach_of_clean h
    have hall := H.unmarked (H.eval hlib collection hcollection henv hc)
    rcases hrounds with ⟨t, hunknown, rfl⟩ | ⟨pairs, kept, m, hpairs, hgather, rfl⟩
    · rw [hunknown] at hall
      exact H.markIf _ (H.unknown .dynamic hall)
    · have hpairs := H.iterated? hall hpairs
      have hrun : ∀ p ∈ pairs, ∀ item m, Gives (Eval.forEntry ⟨library, false⟩ env keyVar valueVar
          key value cond p) (item, m) → item.Has P := by
        intro p hp item m hitem
        have hround : Env.All P (bindItem keyVar valueVar p env) := henv.bindItem (hpairs p hp)
        exact has_forEntry (fun _ => H.evalFilter hlib cond hcond hround)
          (fun _ => H.evalKey hlib key hkey hround)
          (fun _ => H.eval hlib value hvalue hround) hitem
      have hkept := has_gather hrun (List.forall_mem_nil _) hgather
      refine H.markIf m ?_
      cases kept with
      | none => exact hkept .dynamic
      | some all => exact H.assemble hkept _ _

theorem evalAll (H : Markable P) (hlib : library.Keeps P) : ∀ (es : List Expr) {env : Env}
    {vs : List Value}, (∀ e ∈ es, e.Writes P) → env.All P →
      Eval.evalAll ⟨library, false⟩ env es = ⟨vs, []⟩ → ∀ v ∈ vs, P v
  | [], _, _, _, _, h => by
    cases h
    exact nofun
  | e :: es, _, _, he, henv, h => by
    obtain ⟨he, hes⟩ := List.forall_mem_cons.1 he
    obtain ⟨u, us, hu, hus, rfl⟩ := evalAll_cons_eq_clean.1 h
    exact List.forall_mem_cons.2 ⟨H.eval hlib e he henv hu, H.evalAll hlib es hes henv hus⟩

theorem evalParts (H : Markable P) (hlib : library.Keeps P) : ∀ (parts : List TemplatePart)
    {env : Env} {span : Span} {x : Option String × Bool}, Expr.TemplateWrites P parts →
      env.All P → Gives (Eval.evalParts ⟨library, false⟩ env span parts) x → x.1 = none →
        ∀ u, P (.unknown u)
  | [], _, _, _, _, _, h, hnone => by
    cases gives_pure.1 h
    cases hnone
  | .text t :: parts, _, _, _, he, henv, h, hnone => by
    obtain ⟨text, m, hrest, rfl⟩ := gives_parts_text.1 h
    have hrest := H.evalParts hlib parts (fun e h => he e (List.mem_cons_of_mem _ h)) henv hrest
    exact hrest (Option.map_eq_none_iff.1 hnone)
  | .interp e :: parts, _, _, _, he, henv, h, hnone => by
    obtain ⟨u, hu, t, ht, text, m, hrest, rfl⟩ := gives_parts_interp.1 h
    have hrest := H.evalParts hlib parts (fun e h => he e (List.mem_cons_of_mem _ h)) henv hrest
    cases t with
    | none =>
      exact H.unknown_of_interpolated (H.eval hlib e (he e List.mem_cons_self) henv hu) ht
    | some t => exact hrest (Option.map_eq_none_iff.1 hnone)

theorem evalItems (H : Markable P) (hlib : library.Keeps P) :
    ∀ (items : List (ObjectKey × Expr)) {env : Env} {attrs : Fields Value}
      {x : Fields Value × Bool × Bool},
      (∀ item ∈ items, Expr.KeyWrites P item.1 ∧ item.2.Writes P) → env.All P →
        (∀ p ∈ attrs, P p.2) → Gives (Eval.evalItems ⟨library, false⟩ env attrs items) x →
          (x.2.1 = false → ∀ u, P (.unknown u)) ∧ ∀ p ∈ x.1, P p.2
  | [], _, _, _, _, _, hattrs, h => by
    cases gives_pure.1 h
    exact ⟨nofun, hattrs⟩
  | (.name _ name, value) :: items, _, _, _, he, henv, hattrs, h => by
    obtain ⟨⟨-, hvalue⟩, hitems⟩ := List.forall_mem_cons.1 he
    obtain ⟨u, hu, hrest⟩ := gives_items_name.1 h
    have hu := H.eval hlib value hvalue henv hu
    exact H.evalItems hlib items hitems henv (forall_mem_insert hattrs hu) hrest
  | (.expr key, value) :: items, _, _, _, he, henv, hattrs, h => by
    obtain ⟨⟨hkey, hvalue⟩, hitems⟩ := List.forall_mem_cons.1 he
    obtain ⟨k, t, more, known, m, hk, ht, rfl, hskips, hgoes⟩ := gives_items_expr h
    have hk := H.eval hlib key (hkey key rfl) henv hk
    cases t with
    | none =>
      obtain ⟨-, hmore⟩ := H.evalItems hlib items hitems henv hattrs (hskips rfl)
      exact ⟨fun _ => H.unknown_of_keyText hk ht, hmore⟩
    | some name =>
      obtain ⟨u, hu, hrest⟩ := hgoes name rfl
      have hu := H.eval hlib value hvalue henv hu
      obtain ⟨hopen, hmore⟩ :=
        H.evalItems hlib items hitems henv (forall_mem_insert hattrs hu) hrest
      exact ⟨fun h => hopen (by simpa using h), hmore⟩

theorem evalFilter (H : Markable P) (hlib : library.Keeps P) : ∀ (cond : Option Expr) {env : Env}
    {x : Option Bool × Bool}, (∀ e ∈ cond, e.Writes P) → env.All P →
      Gives (Eval.evalFilter ⟨library, false⟩ env cond) x → x.1 = none → ∀ u, P (.unknown u)
  | none, _, _, _, _, h, hnone => by
    cases gives_pure.1 h
    cases hnone
  | some cond, _, _, he, henv, h, hnone => by
    obtain ⟨c, d, hc, hnull, hd, rfl⟩ := gives_filter.1 h
    cases hnone
    exact H.unknown_of_truth (H.eval hlib cond (he cond rfl) henv hc) hnull hd

theorem evalKey (H : Markable P) (hlib : library.Keeps P) : ∀ (key : Option Expr) {env : Env}
    {x : Option (Option String) × Bool}, (∀ e ∈ key, e.Writes P) → env.All P →
      Gives (Eval.evalKey ⟨library, false⟩ env key) x → x.1 = none → ∀ u, P (.unknown u)
  | none, _, _, _, _, h, hnone => by
    cases gives_pure.1 h
    cases hnone
  | some key, _, _, he, henv, h, hnone => by
    obtain ⟨k, t, hk, ht, rfl⟩ := gives_key.1 h
    cases Option.map_eq_none_iff.1 hnone
    exact H.unknown_of_keyText (H.eval hlib key (he key rfl) henv hk) ht

end

/-- An evaluation without references that reports no errors reports nothing. -/
theorem constant (H : Markable P) (hlib : library.Keeps P) {e : Expr} (he : e.Writes P)
    (h : Diagnostics.errors (Eval.constant library e).diags = []) :
    P (Eval.constant library e).result := by
  unfold Eval.constant at h ⊢
  split at h
  · cases h
  · exact H.eval hlib e he Env.all_nil (eq_of_no_errors h)

/-! Definitions that are read. -/

section Definitions

variable {evaluate : Expr → Report Value}

/-- Without errors the expressions have values with the property. -/
def EvaluatesTo (P : Value → Prop) (evaluate : Expr → Report Value) : Prop :=
  ∀ e : Expr, e.Writes P → Diagnostics.errors (evaluate e).diags = [] → P (evaluate e).result

theorem readEntries (heval : EvaluatesTo P evaluate) {attributes : Fields Attribute}
    (hattributes : Parser.AttributesWrite P attributes) :
    Ensures (fun fields => ∀ p ∈ fields, P p.2)
      (Definitions.readEntries evaluate attributes) := by
  induction attributes with
  | nil => exact ensures_ok (List.forall_mem_nil _)
  | cons entry rest ih =>
    obtain ⟨name, a⟩ := entry
    obtain ⟨hfirst, hrest⟩ := List.forall_mem_cons.1 hattributes
    simp only [Definitions.readEntries]
    split
    · exact ensures_error
    · next hclean =>
      refine ensures_bind (ih hrest) fun more hmore => ensures_ok ?_
      exact List.forall_mem_cons.2 ⟨heval _ hfirst hclean, hmore⟩

theorem decode (H : Markable P) (heval : EvaluatesTo P evaluate) (v : Value) :
    Ensures P (Definitions.decode evaluate v) := by
  unfold Definitions.decode
  refine ensures_ite ensures_error (ensures_then fun s => ?_)
  split
  · exact ensures_error
  · next hfile =>
    split
    · exact ensures_error
    · refine ensures_map fun fields hfields => ?_
      obtain ⟨hattributes, -⟩ := Parser.bodyWrites_of_file H.toHereditary hfile
      exact H.object.2 (readEntries heval hattributes fields hfields)

end Definitions

theorem of_call (H : Markable P) {f : Builtin} {args : List Value} (hf : Keeps P f)
    (hargs : ∀ a ∈ args, P a) (h : f.call false args = .ok v) : P v := by
  cases result_of_call h with
  | skipped _ hpure => cases hpure
  | undetermined _ hunknown => exact H.markIf _ (H.unknown_of_allKnown args hargs hunknown _)
  | direct _ hrun => exact hf args hargs v hrun
  | shielded _ _ hrun => exact H.markIf _ (hf _ (H.bareAll args hargs) _ hrun)

/-- The one function that evaluates expressions has to come by values with the property. -/
theorem of_withEvaluator (H : Markable P) {ambient : Library.Ambient}
    {evaluate : Expr → Report Value} {site : Span} {name : String} {f : Builtin}
    {args : List Value} (hf : Library.withEvaluator ambient evaluate site name = some f)
    (heval : name = "provider::terraform::decode_tfvars" → EvaluatesTo P evaluate)
    (hargs : ∀ a ∈ args, P a) (hcall : f.call false args = .ok v) : P v := by
  have hkeeps := H.keeps_withEvaluator hf (fun _ _ => H.marked) fun h u _ => H.decode (heval h) u
  exact H.of_call hkeeps hargs hcall

theorem keeps_nested (H : Markable P) {ambient : Library.Ambient} :
    ∀ n, (Library.nested ambient n).Keeps P
  -- Where texts are nested too deep the function that reads them fails.
  | 0, site, name, f, args, v, hf, hargs, hcall => by
    simp only [Library.nested] at hf
    split at hf
    · cases hf
      exact H.of_call (keeps_unary fun _ _ => ensures_error) hargs hcall
    · next hname => exact H.of_withEvaluator hf (fun h => absurd h hname) hargs hcall
  | n + 1, _, _, _, _, _, hf, hargs, hcall =>
    H.of_withEvaluator hf (fun _ _ he h => H.constant (H.keeps_nested n) he h) hargs hcall

end Value.Markable

end StaticConfig
