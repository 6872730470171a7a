import StaticConfig.Proofs.Evaluation.Compositional
import StaticConfig.Proofs.Fields
import StaticConfig.Proofs.Resolution.Mentions
import StaticConfig.Scope.Substitution

/-!
Substitution against environments. An expression with a value in place of a name has the value
that the expression has where the name stands for this value, and it refers to what the expression
refers to where the name is bound.
-/
namespace StaticConfig

namespace Expr

variable {x : String} {v : Value}

theorem span_substitute (e : Expr) : (e.substitute x v).span = e.span := by
  cases e with
  | traversal span root steps =>
    rw [substitute]
    split
    · rfl
    · rfl
  | forEach span keyVar valueVar collection key value cond group =>
    rw [substitute]
    split
    · rfl
    · rfl
  | _ => rfl

theorem map_span_substituteOption (e : Option Expr) :
    (substituteOption x v e).map span = e.map span := by
  cases e with
  | none => rfl
  | some e => exact congrArg some (span_substitute e)

theorem map_span_substituteAll (es : List Expr) :
    (substituteAll x v es).map span = es.map span := by
  induction es with
  | nil => rfl
  | cons e es ih => simp only [substituteAll, List.map_cons, span_substitute, ih]

theorem substituteParts_ne_lone {parts : List TemplatePart} (h : ∀ e, parts ≠ [.interp e])
    (e : Expr) : substituteParts x v parts ≠ [.interp e] := by
  intro hlone
  cases parts with
  | nil => cases hlone
  | cons part parts =>
    cases part with
    | text => cases hlone
    | interp inner =>
      cases parts with
      | nil => exact h inner rfl
      | cons part parts => cases part <;> cases hlone

/-- A single name stays one, unless it is the one that is replaced. -/
theorem keyword?_substitute : ∀ e : Expr, e.keyword? ≠ some x →
    (e.substitute x v).keyword? = e.keyword?
  | .traversal span root [], h => by
    have hroot : root ≠ x := fun heq => h (congrArg some heq)
    rw [substitute, if_neg hroot]
  | .traversal span root (step :: steps), _ => by
    rw [substitute]
    split
    · rfl
    · rfl
  | .parens _ inner, h => keyword?_substitute inner h
  | .forEach _ _ _ _ _ _ _ _, _ => by
    rw [substitute]
    split
    · rfl
    · rfl
  | .literal _ _, _ | .template _ _, _ | .relative _ _ _, _ | .index _ _ _, _ | .splat _ _ _, _
  | .tuple _ _, _ | .object _ _, _ | .call _ _ _ _, _ | .unary _ _ _, _ | .binary _ _ _ _, _
  | .conditional _ _ _ _, _ => rfl

end Expr

namespace References

/-- Only which names are bound counts, not their order. -/
theorem ofExpr_congr {bound bound' : List String} (h : ∀ name, name ∈ bound ↔ name ∈ bound')
    (e : Expr) : ofExpr bound e = ofExpr bound' e := by
  have hgathered : Gathered fun found : Bool → References => found true = found false :=
    ⟨rfl, fun ha hb => congr (congrArg append ha) hb⟩
  let family : Bool → List String := fun i => if i then bound else bound'
  have hinside : HoldsInside (fun found : Bool → References => found true = found false)
      family := by
    intro names root steps span
    have hcontains : (names ++ bound).contains root = (names ++ bound').contains root := by
      rw [Bool.eq_iff_iff, List.contains_iff_mem, List.contains_iff_mem, List.mem_append,
        List.mem_append, h root]
    change ofTraversal (names ++ bound) root steps span =
      ofTraversal (names ++ bound') root steps span
    rw [ofTraversal, ofTraversal, hcontains]
  exact hgathered.ofExpr hinside e

theorem ofOption_congr {bound bound' : List String} (h : ∀ name, name ∈ bound ↔ name ∈ bound')
    (e : Option Expr) : ofOption bound e = ofOption bound' e := by
  cases e with
  | none => rfl
  | some e => exact ofExpr_congr h e

theorem mem_bind {bound : List String} {keyVar : Option String} {valueVar name : String} :
    name ∈ bind bound keyVar valueVar ↔
      (valueVar = name ∨ keyVar = some name) ∨ name ∈ bound := by
  simp only [bind, List.cons_append, List.mem_cons, List.mem_append, Option.mem_toList,
    or_assoc, eq_comm]

variable {x : String} {v : Value}

theorem ofTraversal_cons {bound : List String} {root : String} {steps : List Step} {span : Span}
    (h : root ≠ x) :
    ofTraversal (x :: bound) root steps span = ofTraversal bound root steps span := by
  rw [ofTraversal, ofTraversal, List.contains_cons, beq_eq_false_iff_ne.2 h, Bool.false_or]

mutual

theorem ofExpr_substitute : ∀ (e : Expr) {bound : List String},
    ofExpr bound (e.substitute x v) = ofExpr (x :: bound) e
  | .literal _ _, _ => rfl
  | .traversal span root steps, bound => by
    rw [Expr.substitute]
    by_cases hroot : root = x
    · subst hroot
      rw [if_pos rfl, ofExpr, ofExpr, ofExpr, ofTraversal, List.contains_cons, beq_self_eq_true,
        Bool.true_or, if_pos rfl]
    · rw [if_neg hroot, ofExpr, ofExpr, ofTraversal_cons hroot]
  | .template _ parts, _ => ofParts_substitute parts
  | .relative _ source _, _ => ofExpr_substitute source
  | .splat _ source _, _ => ofExpr_substitute source
  | .index _ collection key, _ => by
    simp only [Expr.substitute, ofExpr, ofExpr_substitute collection, ofExpr_substitute key]
  | .tuple _ items, _ => ofExprs_substitute items
  | .object _ items, _ => ofItems_substitute items
  | .call _ _ args _, _ => ofExprs_substitute args
  | .unary _ _ operand, _ => ofExpr_substitute operand
  | .parens _ inner, _ => ofExpr_substitute inner
  | .binary _ _ lhs rhs, _ => by
    simp only [Expr.substitute, ofExpr, ofExpr_substitute lhs, ofExpr_substitute rhs]
  | .conditional _ cond yes no, _ => by
    simp only [Expr.substitute, ofExpr, ofExpr_substitute cond, ofExpr_substitute yes,
      ofExpr_substitute no]
  | .forEach _ keyVar valueVar collection key value cond _, bound => by
    rw [Expr.substitute]
    by_cases hidden : valueVar = x ∨ keyVar = some x
    · -- The name is bound inside in any case.
      have hbound (name : String) : name ∈ bind bound keyVar valueVar ↔
          name ∈ bind (x :: bound) keyVar valueVar := by
        rw [mem_bind, mem_bind, List.mem_cons]
        constructor
        · exact fun h => h.imp_right .inr
        · intro h
          rcases h with h | rfl | h
          · exact .inl h
          · exact .inl hidden
          · exact .inr h
      rw [if_pos hidden]
      simp only [ofExpr, ofExpr_substitute collection, ofExpr_congr hbound value,
        ofOption_congr hbound key, ofOption_congr hbound cond]
    · have hbound (name : String) : name ∈ x :: bind bound keyVar valueVar ↔
          name ∈ bind (x :: bound) keyVar valueVar := by
        rw [mem_bind, List.mem_cons, mem_bind, List.mem_cons, or_left_comm]
      rw [if_neg hidden]
      simp only [ofExpr, ofExpr_substitute collection, ofExpr_substitute value,
        ofOption_substitute key, ofOption_substitute cond, ofExpr_congr hbound value,
        ofOption_congr hbound key, ofOption_congr hbound cond]

theorem ofExprs_substitute : ∀ (es : List Expr) {bound : List String},
    ofExprs bound (Expr.substituteAll x v es) = ofExprs (x :: bound) es
  | [], _ => rfl
  | e :: es, _ => by
    simp only [Expr.substituteAll, ofExprs, ofExpr_substitute e, ofExprs_substitute es]

theorem ofOption_substitute : ∀ (e : Option Expr) {bound : List String},
    ofOption bound (Expr.substituteOption x v e) = ofOption (x :: bound) e
  | none, _ => rfl
  | some e, _ => ofExpr_substitute e

theorem ofParts_substitute : ∀ (parts : List TemplatePart) {bound : List String},
    ofParts bound (Expr.substituteParts x v parts) = ofParts (x :: bound) parts
  | [], _ => rfl
  | .text _ :: parts, _ => ofParts_substitute parts
  | .interp e :: parts, _ => by
    simp only [Expr.substituteParts, ofParts, ofExpr_substitute e, ofParts_substitute parts]

theorem ofItems_substitute : ∀ (items : List (ObjectKey × Expr)) {bound : List String},
    ofItems bound (Expr.substituteItems x v items) = ofItems (x :: bound) items
  | [], _ => rfl
  | (.name _ _, value) :: items, _ => by
    simp only [Expr.substituteItems, ofItems, ofExpr_substitute value, ofItems_substitute items]
  | (.expr key, value) :: items, _ => by
    simp only [Expr.substituteItems, ofItems, ofExpr_substitute key, ofExpr_substitute value,
      ofItems_substitute items]

end

end References

namespace Eval

/-- Only what the names stand for counts. -/
theorem eval_congr (s : Setting) {env env' : Env} (h : ∀ name, env.lookup name = env'.lookup name)
    (e : Expr) : eval s env e = eval s env' e := by
  have hcompositional : Compositional (fun _ : Bool => s) fun _ r => r true = r false :=
    { of_pure := fun a => rfl
      of_bind := fun {α β m f} hm hf => by
        change (m true >>= fun a => f a true) = m false >>= fun a => f a false
        rw [hm, funext hf]
      of_fault := fun e => rfl
      of_branch := fun cond condSpan span hyes hno =>
        congr (congrArg (chooseBranch cond condSpan span) hyes) hno
      of_call := fun name vs span => rfl }
  let family : Bool → Env := fun i => if i then env else env'
  have huniform : Uniform family := by
    refine ⟨env', fun i name => ?_⟩
    cases i with
    | true => exact h name
    | false => rfl
  exact hcompositional.of_eval huniform e

variable {s : Setting} {x : String} {v : Value} {keyVar : Option String} {valueVar : String}
  {env env' : Env}

theorem evalFilter_congr (h : ∀ name, env.lookup name = env'.lookup name) (cond : Option Expr) :
    evalFilter s env cond = evalFilter s env' cond := by
  cases cond with
  | none => simp only [evalFilter]
  | some e => simp only [evalFilter, eval_congr s h e]

theorem evalKey_congr (h : ∀ name, env.lookup name = env'.lookup name) (key : Option Expr) :
    evalKey s env key = evalKey s env' key := by
  cases key with
  | none => simp only [evalKey]
  | some e => simp only [evalKey, eval_congr s h e]

/-- A name that a round binds is hidden in the round. -/
theorem lookup_bindItem_cons_of_hidden (hidden : valueVar = x ∨ keyVar = some x)
    (pair : Value × Value) (name : String) :
    (bindItem keyVar valueVar pair env).lookup name =
      (bindItem keyVar valueVar pair ((x, v) :: env)).lookup name := by
  by_cases hitem : name ∈ valueVar :: keyVar.toList
  · rw [lookup_bindItem_of_mem hitem, lookup_bindItem_of_mem hitem]
  · have hx : x ∈ valueVar :: keyVar.toList := by
      rw [List.mem_cons, Option.mem_toList]
      exact hidden.imp_left Eq.symm
    have hne : name ≠ x := fun heq => hitem (heq ▸ hx)
    rw [lookup_bindItem_of_not_mem hitem, lookup_bindItem_of_not_mem hitem, List.lookup_cons,
      beq_eq_false_iff_ne.2 hne]

/-- Any other name may be bound before or after the round binds its own. -/
theorem lookup_cons_bindItem_of_not_hidden (hidden : ¬(valueVar = x ∨ keyVar = some x))
    (pair : Value × Value) (name : String) :
    List.lookup name ((x, v) :: bindItem keyVar valueVar pair env) =
      (bindItem keyVar valueVar pair ((x, v) :: env)).lookup name := by
  by_cases hitem : name ∈ valueVar :: keyVar.toList
  · have hne : name ≠ x := by
      intro heq
      rw [heq, List.mem_cons, Option.mem_toList] at hitem
      exact hidden (hitem.imp_left Eq.symm)
    rw [List.lookup_cons, beq_eq_false_iff_ne.2 hne, lookup_bindItem_of_mem hitem,
      lookup_bindItem_of_mem hitem]
  · rw [lookup_bindItem_of_not_mem hitem, List.lookup_cons, List.lookup_cons,
      lookup_bindItem_of_not_mem hitem]

mutual

theorem eval_substitute : ∀ (e : Expr) {env : Env},
    eval s env (e.substitute x v) = eval s ((x, v) :: env) e
  | .literal _ _, _ => by simp only [Expr.substitute, eval]
  | .traversal span root steps, env => by
    rw [Expr.substitute]
    by_cases hroot : root = x
    · subst hroot
      rw [if_pos rfl]
      simp only [eval, List.lookup_cons, beq_self_eq_true]
      rfl
    · rw [if_neg hroot]
      simp only [eval, List.lookup_cons, beq_eq_false_iff_ne.2 hroot]
  | .parens _ inner, _ => by
    simp only [Expr.substitute, eval, eval_substitute inner]
  | .relative _ source _, _ => by
    simp only [Expr.substitute, eval, eval_substitute source]
  | .splat _ source _, _ => by
    simp only [Expr.substitute, eval, eval_substitute source]
  | .unary _ _ operand, _ => by
    simp only [Expr.substitute, eval, eval_substitute operand]
  | .index _ collection key, _ => by
    simp only [Expr.substitute, eval, eval_substitute collection, eval_substitute key]
  | .binary _ _ lhs rhs, _ => by
    simp only [Expr.substitute, eval, eval_substitute lhs, eval_substitute rhs,
      Expr.span_substitute]
  | .conditional _ cond yes no, _ => by
    simp only [Expr.substitute, eval, eval_substitute cond, eval_substitute yes,
      eval_substitute no, Expr.span_substitute]
  | .tuple _ items, _ => by
    simp only [Expr.substitute, eval, evalAll_substitute items]
  | .object _ items, _ => by
    simp only [Expr.substitute, eval, evalItems_substitute items]
  | .call span _ args _, _ => by
    have hspan := lastSpan_eq span (Expr.map_span_substituteAll (x := x) (v := v) args)
    simp only [Expr.substitute, eval, evalAll_substitute args, hspan]
  -- A lone interpolation is evaluated differently.
  | .template _ [.interp inner], _ => by
    simp only [Expr.substitute, Expr.substituteParts, eval, eval_substitute inner]
  | .template span [], _ => eval_template_congr nofun nofun (evalParts_substitute span [])
  | .template span (.text text :: parts), _ =>
    eval_template_congr nofun nofun (evalParts_substitute span (.text text :: parts))
  | .template span (.interp inner :: part :: parts), _ =>
    eval_template_congr (Expr.substituteParts_ne_lone nofun) nofun
      (evalParts_substitute span (.interp inner :: part :: parts))
  | .forEach span keyVar valueVar collection key value cond group, env => by
    rw [Expr.substitute]
    by_cases hidden : valueVar = x ∨ keyVar = some x
    · rw [if_pos hidden]
      refine eval_forEach_congr (eval_substitute collection) (Expr.span_substitute collection) rfl
        fun pair => ?_
      have hitem (name : String) : (bindItem keyVar valueVar pair env).lookup name =
          (bindItem keyVar valueVar pair ((x, v) :: env)).lookup name :=
        lookup_bindItem_cons_of_hidden hidden pair name
      simp only [forEntry, evalFilter_congr hitem, evalKey_congr hitem, eval_congr s hitem]
    · rw [if_neg hidden]
      refine eval_forEach_congr (eval_substitute collection) (Expr.span_substitute collection)
        (Expr.map_span_substituteOption key) fun pair => ?_
      have hitem (name : String) : List.lookup name ((x, v) :: bindItem keyVar valueVar pair env) =
          (bindItem keyVar valueVar pair ((x, v) :: env)).lookup name :=
        lookup_cons_bindItem_of_not_hidden hidden pair name
      simp only [forEntry, evalFilter_substitute cond, evalKey_substitute key,
        eval_substitute value, evalFilter_congr hitem, evalKey_congr hitem, eval_congr s hitem]

theorem evalAll_substitute : ∀ (es : List Expr) {env : Env},
    evalAll s env (Expr.substituteAll x v es) = evalAll s ((x, v) :: env) es
  | [], _ => by simp only [Expr.substituteAll, evalAll]
  | e :: es, _ => by
    simp only [Expr.substituteAll, evalAll, eval_substitute e, evalAll_substitute es]

theorem evalParts_substitute (span : Span) : ∀ (parts : List TemplatePart) {env : Env},
    evalParts s env span (Expr.substituteParts x v parts) = evalParts s ((x, v) :: env) span parts
  | [], _ => by simp only [Expr.substituteParts, evalParts]
  | .text _ :: parts, _ => by
    simp only [Expr.substituteParts, evalParts, evalParts_substitute span parts]
  | .interp e :: parts, _ => by
    simp only [Expr.substituteParts, evalParts, eval_substitute e, evalParts_substitute span parts,
      Expr.span_substitute]

theorem evalItems_substitute : ∀ (items : List (ObjectKey × Expr)) {env : Env}
    {attrs : Fields Value}, evalItems s env attrs (Expr.substituteItems x v items) =
      evalItems s ((x, v) :: env) attrs items
  | [], _, _ => by simp only [Expr.substituteItems, evalItems]
  | (.name _ _, value) :: items, _, _ => by
    simp only [Expr.substituteItems, evalItems, eval_substitute value, evalItems_substitute items]
  | (.expr key, value) :: items, _, _ => by
    simp only [Expr.substituteItems, evalItems, eval_substitute key, eval_substitute value,
      evalItems_substitute items, Expr.span_substitute]

theorem evalFilter_substitute : ∀ (cond : Option Expr) {env : Env},
    evalFilter s env (Expr.substituteOption x v cond) = evalFilter s ((x, v) :: env) cond
  | none, _ => by simp only [Expr.substituteOption, evalFilter]
  | some e, _ => by
    simp only [Expr.substituteOption, evalFilter, eval_substitute e, Expr.span_substitute]

theorem evalKey_substitute : ∀ (key : Option Expr) {env : Env},
    evalKey s env (Expr.substituteOption x v key) = evalKey s ((x, v) :: env) key
  | none, _ => by simp only [Expr.substituteOption, evalKey]
  | some e, _ => by
    simp only [Expr.substituteOption, evalKey, eval_substitute e, Expr.span_substitute]

end

end Eval

/-- An expression with a value in place of a name gives the value and the diagnostics that it gives
where the name is bound to the value, in rounds of for expressions or in the table of variables. It
refers to what it refers to where the name is bound. -/
theorem Expr.substitute_eq_bind (e : Expr) (x : String) (v : Value) :
    (∀ s env, Eval.eval s env (e.substitute x v) = Eval.eval s ((x, v) :: env) e) ∧
      (∀ s (table : Fields Value), Eval.eval s table (e.substitute x v) =
        Eval.eval s (table.insert x v) e) ∧
      ∀ bound, References.ofExpr bound (e.substitute x v) = References.ofExpr (x :: bound) e := by
  refine ⟨fun s env => Eval.eval_substitute e, fun s table => ?_,
    fun bound => References.ofExpr_substitute e⟩
  calc Eval.eval s table (e.substitute x v)
    _ = Eval.eval s ((x, v) :: table) e := Eval.eval_substitute e
    _ = Eval.eval s (table.insert x v) e :=
      (Eval.eval_congr s (Fields.lookup_insert x v table) e).symm

end StaticConfig
