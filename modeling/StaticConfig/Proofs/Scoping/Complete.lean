import StaticConfig.Proofs.Evaluation.Compositional
import StaticConfig.Proofs.Evaluation.Raised
import StaticConfig.Proofs.Resolution.Mentions
import StaticConfig.Proofs.Scoping.Named
import StaticConfig.Proofs.Scoping.Roots

/-!
Expressions with the values of their references put in. Where every reference of an expression is
found in the environment, the expression has the value that it has with these values in place of
the leading steps of its traversals, whatever else the environment has.
-/
namespace StaticConfig

namespace Expr

/-- The traversal with the value of the subject that it names in place of the leading steps. -/
def resolveTraversal (values : Subject → Value) (bound : List String) (span : Span) (root : String)
    (steps : List Step) : Expr :=
  if bound.contains root then .traversal span root steps
  else
    match Reference.ofTraversal root steps span with
    | .ok r =>
      .relative span (.literal span (values r.subject)) (steps.drop r.subject.attrs.length)
    | .error _ => .traversal span root steps

mutual

/-- The expression with the values of what it refers to put in. The names in `bound` are not
references. -/
def resolve (values : Subject → Value) (bound : List String) : Expr → Expr
  | .literal span value => .literal span value
  | .traversal span root steps => resolveTraversal values bound span root steps
  | .template span parts => .template span (resolveParts values bound parts)
  | .relative span source steps => .relative span (resolve values bound source) steps
  | .index span collection key =>
    .index span (resolve values bound collection) (resolve values bound key)
  | .splat span source each => .splat span (resolve values bound source) each
  | .tuple span items => .tuple span (resolveAll values bound items)
  | .object span items => .object span (resolveItems values bound items)
  | .call span called args expand => .call span called (resolveAll values bound args) expand
  | .unary span op operand => .unary span op (resolve values bound operand)
  | .binary span op lhs rhs =>
    .binary span op (resolve values bound lhs) (resolve values bound rhs)
  | .conditional span cond yes no =>
    .conditional span (resolve values bound cond) (resolve values bound yes)
      (resolve values bound no)
  | .forEach span keyVar valueVar collection key value cond group =>
    let inner := References.bind bound keyVar valueVar
    .forEach span keyVar valueVar (resolve values bound collection)
      (resolveOption values inner key) (resolve values inner value)
      (resolveOption values inner cond) group
  | .parens span inner => .parens span (resolve values bound inner)

def resolveAll (values : Subject → Value) (bound : List String) : List Expr → List Expr
  | [] => []
  | e :: es => resolve values bound e :: resolveAll values bound es

def resolveOption (values : Subject → Value) (bound : List String) : Option Expr → Option Expr
  | none => none
  | some e => some (resolve values bound e)

def resolveParts (values : Subject → Value) (bound : List String) :
    List TemplatePart → List TemplatePart
  | [] => []
  | .text s :: parts => .text s :: resolveParts values bound parts
  | .interp e :: parts => .interp (resolve values bound e) :: resolveParts values bound parts

def resolveItems (values : Subject → Value) (bound : List String) :
    List (ObjectKey × Expr) → List (ObjectKey × Expr)
  | [] => []
  | (.name span s, e) :: items =>
    (.name span s, resolve values bound e) :: resolveItems values bound items
  | (.expr k, e) :: items =>
    (.expr (resolve values bound k), resolve values bound e) :: resolveItems values bound items

end

variable (values : Subject → Value) (bound : List String)

theorem span_resolve (e : Expr) : (e.resolve values bound).span = e.span := by
  cases e with
  | traversal span root steps =>
    rw [resolve, resolveTraversal]
    split
    · rfl
    · split <;> rfl
  | _ => rfl

theorem map_span_resolveOption (e : Option Expr) :
    (resolveOption values bound e).map span = e.map span := by
  cases e with
  | none => rfl
  | some e => exact congrArg some (span_resolve values bound e)

theorem map_span_resolveAll (es : List Expr) :
    (resolveAll values bound es).map span = es.map span := by
  induction es with
  | nil => rfl
  | cons e es ih => simp only [resolveAll, List.map_cons, span_resolve, ih]

variable {values bound} in
theorem resolveParts_ne_lone {parts : List TemplatePart} (h : ∀ e, parts ≠ [.interp e]) (e : Expr) :
    resolveParts values bound parts ≠ [.interp e] := by
  intro hlone
  cases parts with
  | nil => cases hlone
  | cons part parts =>
    cases part with
    | text => cases hlone
    | interp inner =>
      cases parts with
      | nil => exact h inner rfl
      | cons part parts => cases part <;> cases hlone

end Expr

namespace Eval

/-- The names in `bound` stand for the same in both environments, all others for what they stand
for in the base. -/
structure Scoped (bound : List String) (base env env' : Env) : Prop where
  bound_eq : ∀ name ∈ bound, env.lookup name = env'.lookup name
  around : Around bound base env

theorem Scoped.bindItem {bound : List String} {base env env' : Env}
    (h : Scoped bound base env env') (keyVar : Option String) (valueVar : String)
    (pair : Value × Value) :
    Scoped (References.bind bound keyVar valueVar) base (bindItem keyVar valueVar pair env)
      (bindItem keyVar valueVar pair env') := by
  refine ⟨fun name hname => ?_, h.around.bindItem⟩
  by_cases hitem : name ∈ valueVar :: keyVar.toList
  · rw [lookup_bindItem_of_mem hitem, lookup_bindItem_of_mem hitem]
  · have hbound : name ∈ bound := (List.mem_append.1 hname).resolve_left hitem
    rw [lookup_bindItem_of_not_mem hitem, lookup_bindItem_of_not_mem hitem]
    exact h.bound_eq name hbound

variable {s : Setting} {values : Subject → Value} {base : Env}

/-- The environment has the value of the subject. -/
abbrev Has (values : Subject → Value) (base : Env) (r : Reference) : Prop :=
  base.Finds r.subject (values r.subject)

theorem eval_resolveTraversal {bound : List String} {env env' : Env}
    (h : Scoped bound base env env') {span : Span} {root : String} {steps : List Step}
    (hmet : (References.ofTraversal bound root steps span).Met (Has values base)) :
    eval s env (.traversal span root steps) =
      eval s env' (Expr.resolveTraversal values bound span root steps) := by
  unfold Expr.resolveTraversal
  by_cases hroot : bound.contains root
  · rw [if_pos hroot, eval, eval, h.bound_eq root (List.contains_iff_mem.1 hroot)]
  · rw [if_neg hroot]
    rw [References.ofTraversal, if_neg hroot] at hmet
    cases hr : Reference.ofTraversal root steps span with
    | error d =>
      rw [hr] at hmet
      cases hmet.valid
    | ok r =>
      rw [hr] at hmet
      have hnamed := Reference.namedBy_of_eq_ok hr
      obtain ⟨u, hu, hsteps⟩ := hmet.each r List.mem_cons_self
      have hlookup : env.lookup root = some u := by
        rw [h.around root (fun hmem => hroot (List.contains_iff_mem.2 hmem)), ← hnamed.root_eq]
        exact hu
      have hlead : u.steps steps =
          (values r.subject).steps (steps.drop r.subject.attrs.length) := by
        rw [← List.take_append_drop r.subject.attrs.length steps, Value.steps_append,
          hsteps _ hnamed.spell]
        simp [bind, Except.bind]
      rw [eval, hlookup]
      simp only [eval, hlead]
      rfl

mutual

theorem eval_resolve : ∀ (e : Expr) {bound : List String} {env env' : Env},
    Scoped bound base env env' → (References.ofExpr bound e).Met (Has values base) →
      eval s env e = eval s env' (e.resolve values bound)
  | .literal _ _, _, _, _, _, _ => by simp only [Expr.resolve, eval]
  | .traversal span root steps, bound, env, env', h, hmet => eval_resolveTraversal h hmet
  | .parens _ inner, _, _, _, h, hmet => by
    simp only [Expr.resolve, eval, eval_resolve inner h hmet]
  | .relative _ source _, _, _, _, h, hmet => by
    simp only [Expr.resolve, eval, eval_resolve source h hmet]
  | .splat _ source _, _, _, _, h, hmet => by
    simp only [Expr.resolve, eval, eval_resolve source h hmet]
  | .unary _ _ operand, _, _, _, h, hmet => by
    simp only [Expr.resolve, eval, eval_resolve operand h hmet]
  | .index _ collection key, _, _, _, h, hmet => by
    obtain ⟨hcollection, hkey⟩ := References.met_append.1 hmet
    simp only [Expr.resolve, eval, eval_resolve collection h hcollection, eval_resolve key h hkey]
  | .binary _ _ lhs rhs, _, _, _, h, hmet => by
    obtain ⟨hlhs, hrhs⟩ := References.met_append.1 hmet
    simp only [Expr.resolve, eval, eval_resolve lhs h hlhs, eval_resolve rhs h hrhs,
      Expr.span_resolve]
  | .conditional _ cond yes no, _, _, _, h, hmet => by
    obtain ⟨hrest, hno⟩ := References.met_append.1 hmet
    obtain ⟨hcond, hyes⟩ := References.met_append.1 hrest
    simp only [Expr.resolve, eval, eval_resolve cond h hcond, eval_resolve yes h hyes,
      eval_resolve no h hno, Expr.span_resolve]
  | .tuple _ items, _, _, _, h, hmet => by
    simp only [Expr.resolve, eval, evalAll_resolve items h hmet]
  | .object _ items, _, _, _, h, hmet => by
    simp only [Expr.resolve, eval, evalItems_resolve items h hmet]
  | .call span _ args _, bound, _, _, h, hmet => by
    have hspan := lastSpan_eq span (Expr.map_span_resolveAll values bound args)
    simp only [Expr.resolve, eval, evalAll_resolve args h hmet, hspan]
  -- A lone interpolation is evaluated differently.
  | .template _ [.interp inner], _, _, _, h, hmet => by
    obtain ⟨hinner, -⟩ := References.met_append.1 hmet
    simp only [Expr.resolve, Expr.resolveParts, eval, eval_resolve inner h hinner]
  | .template span [], _, _, _, h, hmet =>
    eval_template_congr nofun nofun (evalParts_resolve span [] h hmet)
  | .template span (.text text :: parts), _, _, _, h, hmet =>
    eval_template_congr nofun nofun (evalParts_resolve span (.text text :: parts) h hmet)
  | .template span (.interp inner :: part :: parts), _, _, _, h, hmet =>
    eval_template_congr nofun (Expr.resolveParts_ne_lone nofun)
      (evalParts_resolve span (.interp inner :: part :: parts) h hmet)
  | .forEach span keyVar valueVar collection key value cond group, bound, _, _, h, hmet => by
    obtain ⟨hrest, hcond⟩ := References.met_append.1 hmet
    obtain ⟨hrest, hvalue⟩ := References.met_append.1 hrest
    obtain ⟨hcollection, hkey⟩ := References.met_append.1 hrest
    refine eval_forEach_congr (eval_resolve collection h hcollection)
      (Expr.span_resolve values bound collection).symm
      (Expr.map_span_resolveOption values _ key).symm fun pair => ?_
    have hitem := h.bindItem keyVar valueVar pair
    simp only [forEntry, evalFilter_resolve cond hitem hcond, evalKey_resolve key hitem hkey,
      eval_resolve value hitem hvalue]

theorem evalAll_resolve : ∀ (es : List Expr) {bound : List String} {env env' : Env},
    Scoped bound base env env' → (References.ofExprs bound es).Met (Has values base) →
      evalAll s env es = evalAll s env' (Expr.resolveAll values bound es)
  | [], _, _, _, _, _ => by simp only [Expr.resolveAll, evalAll]
  | e :: es, _, _, _, h, hmet => by
    obtain ⟨he, hes⟩ := References.met_append.1 hmet
    simp only [Expr.resolveAll, evalAll, eval_resolve e h he, evalAll_resolve es h hes]

theorem evalParts_resolve (span : Span) : ∀ (parts : List TemplatePart) {bound : List String}
    {env env' : Env}, Scoped bound base env env' →
      (References.ofParts bound parts).Met (Has values base) →
      evalParts s env span parts = evalParts s env' span (Expr.resolveParts values bound parts)
  | [], _, _, _, _, _ => by simp only [Expr.resolveParts, evalParts]
  | .text _ :: parts, _, _, _, h, hmet => by
    simp only [Expr.resolveParts, evalParts, evalParts_resolve span parts h hmet]
  | .interp e :: parts, _, _, _, h, hmet => by
    obtain ⟨he, hparts⟩ := References.met_append.1 hmet
    simp only [Expr.resolveParts, evalParts, eval_resolve e h he,
      evalParts_resolve span parts h hparts, Expr.span_resolve]

theorem evalItems_resolve : ∀ (items : List (ObjectKey × Expr)) {bound : List String}
    {env env' : Env}, Scoped bound base env env' →
      (References.ofItems bound items).Met (Has values base) → ∀ {attrs : Fields Value},
      evalItems s env attrs items = evalItems s env' attrs (Expr.resolveItems values bound items)
  | [], _, _, _, _, _, _ => by simp only [Expr.resolveItems, evalItems]
  | (.name _ _, value) :: items, _, _, _, h, hmet, _ => by
    obtain ⟨hvalue, hitems⟩ := References.met_append.1 hmet
    simp only [Expr.resolveItems, evalItems, eval_resolve value h hvalue,
      evalItems_resolve items h hitems]
  | (.expr key, value) :: items, _, _, _, h, hmet, _ => by
    obtain ⟨hrest, hitems⟩ := References.met_append.1 hmet
    obtain ⟨hkey, hvalue⟩ := References.met_append.1 hrest
    simp only [Expr.resolveItems, evalItems, eval_resolve key h hkey, eval_resolve value h hvalue,
      evalItems_resolve items h hitems, Expr.span_resolve]

theorem evalFilter_resolve : ∀ (cond : Option Expr) {bound : List String} {env env' : Env},
    Scoped bound base env env' → (References.ofOption bound cond).Met (Has values base) →
      evalFilter s env cond = evalFilter s env' (Expr.resolveOption values bound cond)
  | none, _, _, _, _, _ => by simp only [Expr.resolveOption, evalFilter]
  | some e, _, _, _, h, hmet => by
    simp only [Expr.resolveOption, evalFilter, eval_resolve e h hmet, Expr.span_resolve]

theorem evalKey_resolve : ∀ (key : Option Expr) {bound : List String} {env env' : Env},
    Scoped bound base env env' → (References.ofOption bound key).Met (Has values base) →
      evalKey s env key = evalKey s env' (Expr.resolveOption values bound key)
  | none, _, _, _, _, _ => by simp only [Expr.resolveOption, evalKey]
  | some e, _, _, _, h, hmet => by
    simp only [Expr.resolveOption, evalKey, eval_resolve e h hmet, Expr.span_resolve]

end

end Eval

end StaticConfig

/-!
Expressions all of whose names are bound. If every name around an expression stands for something,
and so does the root of every reference, no evaluation of the expression misses a name.
-/
namespace StaticConfig

/-- The diagnostic is not about a name that stands for nothing. -/
def Diagnostic.Known (d : Diagnostic) : Prop := d.summary ≠ "Unknown variable"

namespace References

variable {P : Reference → Prop} {bound : List String}

theorem met_of_mem_exprs {es : List Expr} {e : Expr} (he : e ∈ es)
    (h : (ofExprs bound es).Met P) : (ofExpr bound e).Met P := by
  induction es with
  | nil => cases he
  | cons e' es ih =>
    obtain ⟨hfirst, hrest⟩ := met_append.1 h
    rcases List.mem_cons.1 he with rfl | he
    · exact hfirst
    · exact ih he hrest

theorem met_of_mem_parts {parts : List TemplatePart} {e : Expr} (he : .interp e ∈ parts)
    (h : (ofParts bound parts).Met P) : (ofExpr bound e).Met P := by
  induction parts with
  | nil => cases he
  | cons part parts ih =>
    cases part with
    | text text => exact ih ((List.mem_cons.1 he).resolve_left nofun) h
    | interp e' =>
      obtain ⟨hfirst, hrest⟩ := met_append.1 h
      rcases List.mem_cons.1 he with heq | he
      · cases heq
        exact hfirst
      · exact ih he hrest

theorem met_of_mem_items {items : List (ObjectKey × Expr)} {key : ObjectKey} {value : Expr}
    (hmem : (key, value) ∈ items) (h : (ofItems bound items).Met P) :
    (ofExpr bound value).Met P ∧ ∀ e, key = .expr e → (ofExpr bound e).Met P := by
  induction items with
  | nil => cases hmem
  | cons item items ih =>
    obtain ⟨key', value'⟩ := item
    cases key' with
    | name span name =>
      obtain ⟨hvalue, hrest⟩ := met_append.1 h
      rcases List.mem_cons.1 hmem with heq | hmem
      · cases heq
        exact ⟨hvalue, nofun⟩
      · exact ih hmem hrest
    | expr e' =>
      obtain ⟨hfirst, hrest⟩ := met_append.1 h
      obtain ⟨hkey, hvalue⟩ := met_append.1 hfirst
      rcases List.mem_cons.1 hmem with heq | hmem
      · cases heq
        refine ⟨hvalue, fun e he => ?_⟩
        cases he
        exact hkey
      · exact ih hmem hrest

end References

namespace Eval

/-- The names in `bound` stand for something, all others for what they stand for in the base. -/
structure Covered (bound : List String) (base env : Env) : Prop where
  isSome : ∀ name ∈ bound, (env.lookup name).isSome
  around : Around bound base env

theorem Covered.bindItem {bound : List String} {base env : Env} (h : Covered bound base env)
    (keyVar : Option String) (valueVar : String) (pair : Value × Value) :
    Covered (References.bind bound keyVar valueVar) base
      (bindItem keyVar valueVar pair env) := by
  refine ⟨fun name hname => ?_, h.around.bindItem⟩
  by_cases hitem : name ∈ valueVar :: keyVar.toList
  · rw [lookup_bindItem_of_mem hitem]
    exact lookup_boundItem_isSome hitem
  · rw [lookup_bindItem_of_not_mem hitem]
    exact h.isSome name ((List.mem_append.1 hname).resolve_left hitem)

/-- The root of the reference stands for something. -/
abbrev Rooted (base : Env) (r : Reference) : Prop := (base.lookup r.subject.root).isSome

variable {s : Setting} {base : Env}

theorem isSome_of_traversal {bound : List String} {env : Env} (h : Covered bound base env)
    {span : Span} {root : String} {steps : List Step}
    (hmet : (References.ofTraversal bound root steps span).Met (Rooted base)) :
    (env.lookup root).isSome := by
  by_cases hroot : root ∈ bound
  · exact h.isSome root hroot
  · have hcontains : ¬bound.contains root := fun hmem => hroot (List.contains_iff_mem.1 hmem)
    rw [References.ofTraversal, if_neg hcontains] at hmet
    rw [h.around root hroot]
    cases hr : Reference.ofTraversal root steps span with
    | error d =>
      rw [hr] at hmet
      cases hmet.valid
    | ok r =>
      rw [hr] at hmet
      rw [← (Reference.namedBy_of_eq_ok hr).root_eq]
      exact hmet.each r List.mem_cons_self

/-- Every name of the expression is bound, or the root of a reference stands for it. -/
def Bound (base env : Env) (e : Expr) : Prop :=
  ∃ bound, Covered bound base env ∧ (References.ofExpr bound e).Met (Rooted base)

/-- The names of a part are bound where it is evaluated. -/
theorem Bound.inner {env env' : Env} {e e' : Expr} (h : Bound base env e)
    (hinner : Inner env e env' e') : Bound base env' e' := by
  obtain ⟨bound, hcovered, hmet⟩ := h
  cases hinner with
  | parens => exact ⟨bound, hcovered, hmet⟩
  | related => exact ⟨bound, hcovered, hmet⟩
  | splatted => exact ⟨bound, hcovered, hmet⟩
  | operand => exact ⟨bound, hcovered, hmet⟩
  | indexed => exact ⟨bound, hcovered, (References.met_append.1 hmet).1⟩
  | index => exact ⟨bound, hcovered, (References.met_append.1 hmet).2⟩
  | lhs => exact ⟨bound, hcovered, (References.met_append.1 hmet).1⟩
  | rhs => exact ⟨bound, hcovered, (References.met_append.1 hmet).2⟩
  | cond =>
    exact ⟨bound, hcovered, (References.met_append.1 (References.met_append.1 hmet).1).1⟩
  | yes => exact ⟨bound, hcovered, (References.met_append.1 (References.met_append.1 hmet).1).2⟩
  | no => exact ⟨bound, hcovered, (References.met_append.1 hmet).2⟩
  | item he => exact ⟨bound, hcovered, References.met_of_mem_exprs he hmet⟩
  | arg he => exact ⟨bound, hcovered, References.met_of_mem_exprs he hmet⟩
  | interp he => exact ⟨bound, hcovered, References.met_of_mem_parts he hmet⟩
  | key hmem => exact ⟨bound, hcovered, (References.met_of_mem_items hmem hmet).2 _ rfl⟩
  | value hmem => exact ⟨bound, hcovered, (References.met_of_mem_items hmem hmet).1⟩
  | collection =>
    obtain ⟨hrest, -⟩ := References.met_append.1 hmet
    obtain ⟨hrest, -⟩ := References.met_append.1 hrest
    exact ⟨bound, hcovered, (References.met_append.1 hrest).1⟩
  | filter pair => exact ⟨_, hcovered.bindItem _ _ pair, (References.met_append.1 hmet).2⟩
  | itemKey pair =>
    obtain ⟨hrest, -⟩ := References.met_append.1 hmet
    obtain ⟨hrest, -⟩ := References.met_append.1 hrest
    exact ⟨_, hcovered.bindItem _ _ pair, (References.met_append.1 hrest).2⟩
  | itemValue pair =>
    obtain ⟨hrest, -⟩ := References.met_append.1 hmet
    exact ⟨_, hcovered.bindItem _ _ pair, (References.met_append.1 hrest).2⟩

/-- No name is missed where all are bound. -/
theorem Raised.known {env : Env} {e : Expr} {err : EvalError} (hr : Raised env e err)
    (h : Bound base env e) : err.diagnostic.Known := by
  induction hr with
  | @ofValue _ _ _ fault hfault =>
    cases fault with
    | unknownVariable name => cases hfault
    | _ => simp [Diagnostic.Known, EvalError.diagnostic, Diagnostic.errorAt, EvalFault.summary]
  | written hwritten =>
    cases hwritten with
    | name hroot =>
      obtain ⟨bound, hcovered, hmet⟩ := h
      have hsome := isSome_of_traversal hcovered hmet
      rw [hroot] at hsome
      cases hsome
    | _ => simp [Diagnostic.Known, EvalError.diagnostic, Diagnostic.errorAt, EvalFault.summary]
  | inner hinner _ ih => exact ih (h.inner hinner)

theorem only_eval (e : Expr) {bound : List String} {env : Env} (h : Covered bound base env)
    (hmet : (References.ofExpr bound e).Met (Rooted base)) :
    Only Diagnostic.Known (eval s env e) := by
  intro d hd
  obtain ⟨err, herr, rfl⟩ := tells_eval e env d hd
  exact herr.known ⟨bound, h, hmet⟩

end Eval

end StaticConfig

/-!
The references that are collected from an expression are all that its evaluation needs. With values
for their subjects and for the names bound around it, the expression misses no name, and nothing
else that an environment has makes a difference.
-/
namespace StaticConfig

theorem Reference.Named.referable {r : Reference} (h : r.Named) : r.subject.Referable := by
  obtain ⟨root, steps, span, hr⟩ := h
  exact (namedBy_of_eq_ok hr).referable

namespace References

/-- The references are to subjects whose roots are not among the names. -/
def Outside (bound : List String) (found : References) : Prop :=
  ∀ r ∈ found.refs, r.subject.root ∉ bound

theorem outside_ofTraversal {bound inner : List String} (hinner : bound ⊆ inner) (root : String)
    (steps : List Step) (span : Span) : (ofTraversal inner root steps span).Outside bound := by
  unfold ofTraversal
  split
  · exact List.forall_mem_nil _
  · rename_i hroot
    split
    · rename_i r hr
      intro r' hr' hmem
      rw [List.mem_singleton.1 hr', (Reference.namedBy_of_eq_ok hr).root_eq] at hmem
      exact hroot (List.contains_iff_mem.2 (hinner hmem))
    · exact List.forall_mem_nil _

/-- A reference never begins with a name that is bound. -/
theorem outside_ofExpr (bound : List String) (e : Expr) : (ofExpr bound e).Outside bound := by
  have hgathered : Gathered fun found : Unit → References => (found ()).Outside bound :=
    ⟨List.forall_mem_nil _, fun ha hb => List.forall_mem_append.2 ⟨ha, hb⟩⟩
  have hinside : HoldsInside (fun found : Unit → References => (found ()).Outside bound)
      fun _ => bound := fun names root steps span =>
    outside_ofTraversal (List.subset_append_right names bound) root steps span
  exact hgathered.ofExpr hinside e

end References

namespace Eval

/-- The environment of an expression: names around it, and the roots for the subjects of its
references. -/
def envFor (names : Env) (values : Subject → Value) (refs : List Reference) : Env :=
  names ++ (Roots.ofSubjects values (refs.map Reference.subject)).env

section Complete

variable {bound : List String} {names : Env} {values : Subject → Value} {e : Expr}

theorem lookup_names_eq_none (hnames : ∀ name, (names.lookup name).isSome ↔ name ∈ bound)
    {name : String} (h : name ∉ bound) : names.lookup name = none := by
  by_contra hsome
  exact h ((hnames name).1 (Option.isSome_iff_ne_none.2 hsome))

variable (values) in
theorem around_envFor (hnames : ∀ name, (names.lookup name).isSome ↔ name ∈ bound)
    (refs : List Reference) :
    Around bound (Roots.ofSubjects values (refs.map Reference.subject)).env
      (envFor names values refs) := by
  intro name hname
  rw [envFor, List.lookup_append, lookup_names_eq_none hnames hname]
  rfl

theorem lookup_envFor (hnames : ∀ name, (names.lookup name).isSome ↔ name ∈ bound)
    (refs : List Reference) {name : String} (h : name ∈ bound) :
    (envFor names values refs).lookup name = names.lookup name := by
  obtain ⟨v, hv⟩ := Option.isSome_iff_exists.1 ((hnames name).2 h)
  rw [envFor, List.lookup_append, hv]
  rfl

variable (bound values e) in
theorem finds_roots {r : Reference} (hr : r ∈ (References.ofExpr bound e).refs) :
    (Roots.ofSubjects values ((References.ofExpr bound e).refs.map Reference.subject)).env.Finds
      r.subject (values r.subject) := by
  refine Roots.finds_ofSubjects (fun t ht => ?_) (List.mem_map_of_mem hr)
  obtain ⟨r', hr', rfl⟩ := List.mem_map.1 ht
  exact ((References.proper_ofExpr bound e).named r' hr').referable

/-- Where nothing is wrong with the references of an expression, values for their subjects and for
the names bound around it are all that it needs. It misses no name. The leading steps of its
traversals lead to the values of the subjects, so that the expression evaluates as if these values
were in their place. And it evaluates alike wherever these names and subjects have these values. -/
theorem eval_of_references (s : Setting) (values : Subject → Value)
    (hvalid : (References.ofExpr bound e).diags = [])
    (hnames : ∀ name, (names.lookup name).isSome ↔ name ∈ bound) :
    let refs := (References.ofExpr bound e).refs
    let env := envFor names values refs
    (∀ d ∈ (eval s env e).diags, d.summary ≠ "Unknown variable") ∧
    (∀ r ∈ refs, env.Finds r.subject (values r.subject)) ∧
    eval s env e = eval s names (e.resolve values bound) ∧
    ∀ env' : Env, (∀ name ∈ bound, env'.lookup name = names.lookup name) →
      (∀ r ∈ refs, env'.Finds r.subject (values r.subject)) →
      eval s env' e = eval s env e := by
  intro refs env
  have haround := around_envFor values hnames refs
  have hroots : (References.ofExpr bound e).Met (Has values
      (Roots.ofSubjects values (refs.map Reference.subject)).env) :=
    ⟨hvalid, fun r hr => finds_roots bound values e hr⟩
  have hresolved : eval s env e = eval s names (e.resolve values bound) :=
    eval_resolve e ⟨fun name hname => lookup_envFor hnames refs hname, haround⟩ hroots
  refine ⟨?_, fun r hr => ?_, hresolved, fun env' hbound hfinds => ?_⟩
  · refine only_eval e ⟨fun name hname => ?_, haround⟩ ⟨hvalid, fun r hr => ?_⟩
    · rw [lookup_envFor hnames refs hname]
      exact (hnames name).2 hname
    · obtain ⟨u, hu, -⟩ := hroots.each r hr
      exact Option.isSome_iff_exists.2 ⟨u, hu⟩
  · obtain ⟨u, hu, hsteps⟩ := hroots.each r hr
    refine ⟨u, ?_, hsteps⟩
    rw [haround _ (References.outside_ofExpr bound e r hr)]
    exact hu
  · rw [hresolved]
    exact eval_resolve e ⟨hbound, fun _ _ => rfl⟩ ⟨hvalid, hfinds⟩

/-- A variable that hides the root of what is iterated over. -/
def hidingRoot : Expr :=
  .forEach default none "data"
    (.traversal default "data" [.attr default "t", .attr default "n", .attr default "all"]) none
    (.tuple default [.traversal default "data" [], .traversal default "x" []]) none false

/-- Another data resource and another name make no difference to what the expression sees. -/
theorem eval_of_references_hiding :
    let s : Setting := ⟨fun _ _ => none, false⟩
    let found := References.ofExpr ["x"] hidingRoot
    let all : Value := .object [("all", .tuple [.bool true])]
    let env := envFor [("x", .bool false)] (fun _ => all) found.refs
    let wider : Env := [("y", .nothing),
      ("data", .object [("t", .object [("m", .nothing), ("n", all)])]), ("x", .bool false)]
    found.diags = [] ∧ found.refs.map Reference.subject = [.resource .data "t" "n"] ∧
      eval s env hidingRoot = ⟨.tuple [.tuple [.bool true, .bool false]], []⟩ ∧
      eval s wider hidingRoot = eval s env hidingRoot := by
  intro s found all env wider
  have hnames (name : String) :
      (List.lookup name [("x", Value.bool false)]).isSome ↔ name ∈ ["x"] := by
    by_cases hname : name = "x"
    · simp [hname]
    · have hne : (name == "x") = false := beq_eq_false_iff_ne.2 hname
      simp [List.lookup_cons, hne, hname]
  obtain ⟨-, -, -, hwider⟩ := eval_of_references s (fun _ => all) (e := hidingRoot) rfl hnames
  refine ⟨rfl, rfl, rfl, hwider wider (fun name hname => ?_) fun r hr => ?_⟩
  · rw [List.mem_singleton.1 hname]
    rfl
  · rw [List.mem_singleton.1 hr]
    refine ⟨_, rfl, fun steps hsteps => ?_⟩
    obtain _ | ⟨⟨span, rfl⟩, hrest⟩ := hsteps
    obtain _ | ⟨⟨span', rfl⟩, hrest⟩ := hrest
    cases hrest
    rfl

end Complete

end Eval

end StaticConfig
