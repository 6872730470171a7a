import StaticConfig.Proofs.Expansion.Substituted

/-!
Expansion by substitution agrees with lexical scoping. An invariant ties the values that have been
put in place of iterators, in the order in which they were, to the environment: both give the same
value for every name. Then expressions have the same values, labels the same texts, and blocks the
same meaning, by induction over the blocks and how deep they are nested.
-/
namespace StaticConfig

namespace Env.Alike

variable {its env : Env}

theorem refl (env : Env) : env.Alike env := fun _ => rfl

theorem mem_keys (h : its.Alike env) (name : String) :
    name ∈ its.map Prod.fst ↔ name ∈ env.map Prod.fst := by
  rw [← not_iff_not, ← Eval.lookup_eq_none_iff_not_mem_keys, h name,
    Eval.lookup_eq_none_iff_not_mem_keys]

theorem append (h : its.Alike env) (rest : Env) : (its ++ rest).Alike (env ++ rest) := by
  intro name
  rw [List.lookup_append, List.lookup_append, h name]

theorem lookup_filter (p : String → Bool) (env : Env) (name : String) :
    (env.filter fun bound => p bound.1).lookup name = if p name then env.lookup name else none := by
  rw [Fields.lookup_eq_get?, Fields.get?_filter, Fields.lookup_eq_get?]

theorem visible (h : its.Alike env) (b : Block) : (b.visible its).Alike (b.visible env) := by
  intro name
  rw [Block.visible, Block.visible, lookup_filter (fun name => !b.hides name),
    lookup_filter (fun name => !b.hides name), h name]

/-- The iterator of a block comes last in the order of substitution, after the values that it does
not hide, and first in the environment, before all others. -/
theorem bind (h : its.Alike env) {b : Block} {iterator : String}
    (hb : ∀ name, b.hides name = (iterator == name)) (v : Value) :
    (b.visible its ++ [(iterator, v)]).Alike ((iterator, v) :: env) := by
  intro name
  rw [List.lookup_append, Block.visible, lookup_filter (fun name => !b.hides name), hb name]
  by_cases hname : name = iterator
  · subst hname
    simp
  · have hne : (iterator == name) = false := beq_eq_false_iff_ne.2 (Ne.symm hname)
    have hne' : (name == iterator) = false := beq_eq_false_iff_ne.2 hname
    simp [hne, hne', h name, List.lookup_cons]

end Env.Alike

theorem References.ofExpr_substituteEnv (e : Expr) (env : Env) (bound : List String) :
    ofExpr bound (e.substituteEnv env) = ofExpr (env.map Prod.fst ++ bound) e := by
  induction env generalizing e with
  | nil => rfl
  | cons first env ih =>
    obtain ⟨x, v⟩ := first
    rw [Expr.substituteEnv_cons, ih, ofExpr_substitute]
    rfl

theorem Eval.eval_substituteEnv (s : Setting) (e : Expr) (env base : Env) :
    eval s base (e.substituteEnv env) = eval s (env ++ base) e := by
  induction env generalizing e with
  | nil => rfl
  | cons first env ih =>
    obtain ⟨x, v⟩ := first
    rw [Expr.substituteEnv_cons, ih, eval_substitute]
    rfl

namespace Scope

variable {ε σ : Type} (s : Scope ε σ) {its env : Env}

theorem evalIn_congr (h : its.Alike env) (e : Expr) : s.evalIn its e = s.evalIn env e := by
  funext want
  have hfound : References.ofExpr (its.map Prod.fst) e = References.ofExpr (env.map Prod.fst) e :=
    References.ofExpr_congr h.mem_keys e
  have hvalue (roots : Roots) :
      Eval.eval ⟨s.library, s.pureOnly⟩ (its ++ roots.env) e =
        Eval.eval ⟨s.library, s.pureOnly⟩ (env ++ roots.env) e :=
    Eval.eval_congr _ (h.append roots.env) e
  simp only [evalIn, hfound, hvalue]

/-- An expression with values in place has the value that it has in the environment. -/
theorem eval_substituteEnv (h : its.Alike env) (e : Expr) :
    s.eval (e.substituteEnv its) = s.evalIn env e := by
  rw [← evalIn_congr s h]
  funext want
  have hfound := References.ofExpr_substituteEnv e its []
  rw [List.append_nil] at hfound
  simp only [eval, evalIn, hfound, Eval.eval_substituteEnv, Expr.span_substituteEnv]

theorem evalLabels_substituteEnv (h : its.Alike env) (labels : List Expr) :
    s.evalLabels (labels.map (Expr.substituteEnv · its)) = s.evalLabelsIn env labels := by
  induction labels with
  | nil => rfl
  | cons e es ih =>
    rw [List.map_cons, evalLabels, eval_substituteEnv s h, ih, Expr.span_substituteEnv]
    rfl

theorem meaning_attribute (h : its.Alike env) (a : Attribute) :
    (a.substituteEnv its).meaning s.eval = a.meaning (s.evalIn env) := by
  rw [Attribute.meaning, Attribute.meaning]
  simp only [Attribute.substituteEnv, eval_substituteEnv s h, Expr.span_substituteEnv]

mutual

theorem meaning_substituted {outer inner outer' inner' : Env} (ho : outer.Alike outer')
    (hi : inner.Alike inner') : ∀ body : Body,
    s.meaning ⟨body.span,
        body.attributes.map fun e =>
          (e.1, e.2.substituteEnv (if e.1 = "for_each" then outer else inner)),
        body.blocks.map (Block.substituteEnv · inner)⟩ = s.meaningIn outer' inner' body
  | ⟨span, attributes, blocks⟩ => by
    rw [meaning, meaningIn, blockMeanings_substituted hi blocks, Fields.mapValues, List.map_map]
    congr 1
    refine List.map_congr_left fun e _ => ?_
    simp only [Function.comp_apply]
    split
    · rw [meaning_attribute s ho]
    · rw [meaning_attribute s hi]

theorem blockMeanings_substituted {its env : Env} (h : its.Alike env) : ∀ blocks : List Block,
    s.blockMeanings (blocks.map (Block.substituteEnv · its)) = s.blockMeaningsIn env blocks
  | [] => rfl
  | ⟨span, definition, type, labels, labelSpans, body⟩ :: bs => by
    rw [List.map_cons, Block.substituteEnv_eq, blockMeanings, blockMeaningsIn,
      meaning_substituted h (h.visible _) body, blockMeanings_substituted h bs]
    rfl

end

theorem blockMeanings_append (bs bs' : List Block) :
    s.blockMeanings (bs ++ bs') = s.blockMeanings bs ++ s.blockMeanings bs' := by
  induction bs with
  | nil => rfl
  | cons b bs ih =>
    cases b
    rw [List.cons_append, blockMeanings, blockMeanings, ih, List.cons_append]

section Generated

variable {expand : Body → Resolving ε σ (Report Body)}
  {expandContent : Env → Resolving ε σ (Report (BodyMeaning ε σ))}
  {b : Block} {type : String} {d : DynamicBlock}

/-- The labels and the content of a generated block, with the element in place of the iterator. -/
theorem generate_substituteEnv (h : its.Alike env)
    (hb : ∀ name, b.hides name = (d.iterator == name))
    (hx : ∀ {its' env' : Env}, its'.Alike env' →
      Report.map s.meaning <$> expand (d.content.substituteEnv its') = expandContent env')
    (es : List (Value × Value)) :
    Report.map s.blockMeanings <$> s.generate expand (b.substituteEnv its) type
        (d.substituteEnv its (b.visible its)) es =
      s.generateIn env expandContent b type d es := by
  induction es with
  | nil => rfl
  | cons e es ih =>
    let v := DynamicBlock.iteratorValue e
    let inside : Env := b.visible its ++ [(d.iterator, v)]
    have hinside : inside.Alike ((d.iterator, v) :: env) := h.bind hb v
    have hlabels : Expr.substituteAll d.iterator v
        (d.labels.map (Expr.substituteEnv · (b.visible its))) =
          d.labels.map (Expr.substituteEnv · inside) :=
      Expr.substituteAll_substituteEnv d.iterator v d.labels (b.visible its)
    have hcontent : (d.content.substituteEnv (b.visible its)).substitute d.iterator v =
        d.content.substituteEnv inside :=
      (Body.substituteEnv_append d.content (b.visible its) [(d.iterator, v)]).symm
    rw [generate, generateIn]
    simp only [DynamicBlock.substituteEnv, map_bind]
    rw [hlabels, evalLabels_substituteEnv s hinside]
    refine bind_congr fun texts => ?_
    cases texts.result with
    | none =>
      simp only [map_bind]
      rw [← ih, bind_map_left]
      rfl
    | some texts =>
      simp only [map_bind]
      rw [hcontent, ← hx hinside, bind_map_left]
      refine bind_congr fun body => ?_
      rw [← ih, bind_map_left]
      refine bind_congr fun rest => ?_
      rw [Expr.map_span_substituteEnv, Block.substituteEnv_eq]
      rfl

end Generated

/-- What a block of a body is replaced by. -/
def expandBlock (s : Scope ε σ) (expand : Body → BodySchema → Resolving ε σ (Report Body))
    (schema : BodySchema) (b : Block) : Resolving ε σ (Report (List Block)) :=
  let type := (dynamicType? b).getD b.type
  match schema.find? type with
  | none => pure ⟨[b], []⟩
  | some nested =>
    if (dynamicType? b).isSome then expandDynamic s (expand · nested) b type
    else do
      let body ← expand b.body nested
      pure ⟨[{ b with body := body.result }], body.diags⟩

theorem expandBlocks_cons (expand : Body → BodySchema → Resolving ε σ (Report Body))
    (schema : BodySchema) (b : Block) (bs : List Block) :
    s.expandBlocks expand schema (b :: bs) = (do
      let first ← s.expandBlock expand schema b
      let rest ← s.expandBlocks expand schema bs
      pure ⟨first.result ++ rest.result, first.diags ++ rest.diags⟩) := by
  rw [expandBlocks, expandBlock]
  cases schema.find? ((dynamicType? b).getD b.type) with
  | none => rfl
  | some nested =>
    by_cases hd : (dynamicType? b).isSome
    · simp only [hd, if_true]
    · simp only [hd, Bool.false_eq_true, if_false, bind_assoc]

/-- What a body whose blocks are nested less deep than `fuel` means when it is expanded, with values
in place of the iterators around it. -/
def ExpandsLexically (s : Scope ε σ) (fuel : Nat) : Prop :=
  ∀ {its env : Env}, its.Alike env → ∀ (body : Body) (schema : BodySchema), body.depth < fuel →
    body.singleLabels →
      Report.map s.meaning <$> s.expandWithin fuel (body.substituteEnv its) schema =
        s.expandIn env body schema

variable {s} {fuel : Nat} {b : Block} {schema nested : BodySchema} {type : String}

theorem expandDynamic_substituteEnv (ih : s.ExpandsLexically fuel) (h : its.Alike env)
    (hb : dynamicType? b = some type) (hschema : schema.find? type = some nested)
    (hdepth : b.body.depth < fuel) (hlabels : b.body.singleLabels) :
    Report.map s.blockMeanings <$>
        s.expandDynamic (s.expandWithin fuel · nested) (b.substituteEnv its) type =
      s.expandBlockIn env schema b := by
  obtain ⟨htype, -⟩ := DynamicBlock.of_dynamicType? hb
  rw [expandDynamic, DynamicBlock.ofBlock_substituteEnv htype, expandBlockIn, hb]
  simp only [hschema]
  cases hd : DynamicBlock.ofBlock b type with
  | error problem => rfl
  | ok d =>
    obtain ⟨⟨c, hc, hcontent⟩, -⟩ := DynamicBlock.of_ofBlock hd
    rw [Body.depth_eq] at hdepth
    rw [Body.singleLabels_eq] at hlabels
    have hcdepth : d.content.depth < fuel := by
      rw [← hcontent]
      exact Nat.lt_trans (Body.depth_lt_of_mem hc) hdepth
    have hclabels : d.content.singleLabels := by
      rw [← hcontent]
      exact (Body.singleLabels_of_mem hlabels hc).2
    have hgenerate (es : List (Value × Value)) :
        Report.map s.blockMeanings <$> s.generate (s.expandWithin fuel · nested)
            (b.substituteEnv its) type (d.substituteEnv its (b.visible its)) es =
          s.generateIn env (s.expandIn · d.content nested) b type d es :=
      generate_substituteEnv s h (DynamicBlock.hides_eq hb hd)
        (fun hinside => ih hinside d.content nested hcdepth hclabels) es
    simp only [Except.map, DynamicBlock.substituteEnv, map_bind, Expr.span_substituteEnv]
    rw [eval_substituteEnv s h]
    refine bind_congr fun r => ?_
    cases DynamicBlock.elements r.result.bare d.collection.span with
    | error problem => rfl
    | ok es =>
      simp only [map_bind]
      rw [← hgenerate, bind_map_left]
      rfl

theorem expandBlock_substituteEnv (ih : s.ExpandsLexically fuel) (h : its.Alike env)
    (hdepth : b.body.depth < fuel) (hlabels : b.body.singleLabels)
    (hb : b.type = "dynamic" → ∃ type, b.labels = [type]) :
    Report.map s.blockMeanings <$>
        s.expandBlock (s.expandWithin fuel) schema (b.substituteEnv its) =
      s.expandBlockIn env schema b := by
  have hkept : Report.map s.blockMeanings <$>
      (pure ⟨[b.substituteEnv its], []⟩ : Resolving ε σ (Report (List Block))) =
        pure ⟨s.blockMeaningsIn env [b], []⟩ := by
    have hblock := blockMeanings_substituted s h [b]
    rw [map_pure, Report.map, ← hblock]
    rfl
  have htype : (b.substituteEnv its).type = b.type := by
    rw [Block.substituteEnv_eq]
  have hdynamic : dynamicType? (b.substituteEnv its) = dynamicType? b := by
    rw [Block.substituteEnv_eq]
    rfl
  rw [expandBlock, hdynamic, htype]
  cases hd : dynamicType? b with
  | none =>
    rw [expandBlockIn, hd]
    simp only [Option.getD_none]
    cases schema.find? b.type with
    | none => exact hkept
    | some nested =>
      have hne : b.type ≠ "dynamic" := by
        intro heq
        obtain ⟨type, htype⟩ := hb heq
        simp [dynamicType?, heq, htype] at hd
      have hbody := ih h b.body nested hdepth hlabels
      simp only [Option.isSome_none, Bool.false_eq_true, if_false, map_bind]
      rw [Block.body_substituteEnv_of_ne hne, ← hbody, bind_map_left, Block.substituteEnv_eq]
      rfl
  | some type =>
    simp only [Option.getD_some, Option.isSome_some, if_true]
    cases hs : schema.find? type with
    | none =>
      rw [expandBlockIn, hd]
      simp only [hs]
      exact hkept
    | some nested => exact expandDynamic_substituteEnv ih h hd hs hdepth hlabels

theorem expandBlocks_substituteEnv (ih : s.ExpandsLexically fuel) (h : its.Alike env)
    (blocks : List Block) (hdepth : Body.blocksDepth blocks ≤ fuel)
    (hlabels : Body.singleLabelsAll blocks) :
    Report.map s.blockMeanings <$>
        s.expandBlocks (s.expandWithin fuel) schema (blocks.map (Block.substituteEnv · its)) =
      s.expandBlocksIn env schema blocks := by
  have hall (b : Block) (hmem : b ∈ blocks) :
      Report.map s.blockMeanings <$>
          s.expandBlock (s.expandWithin fuel) schema (b.substituteEnv its) =
        s.expandBlockIn env schema b := by
    have hbdepth : b.body.depth < fuel :=
      Nat.lt_of_lt_of_le (Body.depth_lt_of_mem hmem) hdepth
    obtain ⟨hsingle, hblabels⟩ := Body.singleLabels_of_mem hlabels hmem
    exact expandBlock_substituteEnv ih h hbdepth hblabels hsingle
  clear hdepth hlabels
  induction blocks with
  | nil =>
    rw [expandBlocksIn]
    rfl
  | cons b bs ihb =>
    obtain ⟨hfirst, hrest⟩ := List.forall_mem_cons.1 hall
    rw [List.map_cons, expandBlocks_cons, expandBlocksIn, ← hfirst, ← ihb hrest, map_bind,
      bind_map_left]
    refine bind_congr fun first => ?_
    rw [map_bind, bind_map_left]
    refine bind_congr fun rest => ?_
    rw [map_pure]
    simp only [Report.map, blockMeanings_append]

theorem expandsLexically (s : Scope ε σ) (fuel : Nat) : s.ExpandsLexically fuel := by
  induction fuel with
  | zero => exact fun _ _ _ hdepth => absurd hdepth (Nat.not_lt_zero _)
  | succ fuel ih =>
    intro its env h body schema hdepth hlabels
    rw [Body.depth_eq] at hdepth
    rw [Body.singleLabels_eq] at hlabels
    have hblocks : Report.map s.blockMeanings <$> s.expandBlocks (s.expandWithin fuel) schema
        (body.blocks.map (Block.substituteEnv · its)) = s.expandBlocksIn env schema body.blocks :=
      expandBlocks_substituteEnv ih h body.blocks (Nat.le_of_lt_succ hdepth) hlabels
    have hattributes : Fields.mapValues (Attribute.meaning s.eval)
        (Fields.mapValues (Attribute.substituteEnv · its) body.attributes) =
          Fields.mapValues (Attribute.meaning (s.evalIn env)) body.attributes := by
      rw [Fields.mapValues, Fields.mapValues, List.map_map]
      refine List.map_congr_left fun e _ => ?_
      simp only [Function.comp_apply, meaning_attribute s h]
    rw [expandWithin, expandIn, Body.substituteEnv_eq, ← hblocks, bind_map_left, map_bind,
      ← hattributes]
    rfl

/-- Expanding the dynamic blocks of a body by substitution gives what the body means under lexical
scoping: blocks of the same types and labels, in the same order and equally nested, with the same
diagnostics, and whose attributes have the values that the attributes in the contents of the dynamic
blocks have where the iterators stand for their elements. -/
theorem meaning_expand (s : Scope ε σ) (body : Body) (schema : BodySchema)
    (h : body.singleLabels) :
    Report.map s.meaning <$> s.expand body schema = s.expandIn [] body schema :=
  s.expandsLexically (body.depth + 1) (.refl []) body schema (Nat.lt_succ_self _) h

/-- A scope whose expressions have nothing to refer to. -/
def isolated : Scope String Unit :=
  ofSource ⟨fun _ _ _ => [], fun _ => pure ⟨.dynamic, []⟩⟩ fun _ _ => none

def attributeNamed (name : String) (e : Expr) : String × Attribute :=
  (name, ⟨default, default, name, e⟩)

def ruleValue : Expr := .traversal default "rule" [.attr default "value"]

/-- A dynamic block for rules. -/
def dynamicRule (collection : Expr) (content : Body) : Block :=
  ⟨default, default, "dynamic", ["rule"], [default],
    ⟨default, [attributeNamed "for_each" collection],
      [⟨default, default, "content", [], [], content⟩]⟩⟩

/-- Rules in rules, with one iterator for both: the inner collection is an element of the outer one,
and the name is an element of the inner one. -/
def nestedRules : Body :=
  ⟨default, [], [dynamicRule
    (.literal default (.tuple [.tuple [.string "a", .string "b"], .tuple [.string "c"]]))
    ⟨default, [], [dynamicRule ruleValue
      ⟨default, [attributeNamed "name" ruleValue], []⟩]⟩]⟩

def rules : BodySchema := ⟨[("rule", ⟨[("rule", ⟨[]⟩)]⟩)]⟩

/-- The values of the attributes of the rules in each rule. -/
def namesOf (body : BodyMeaning String Unit) : List (List (Except String Value)) :=
  body.blocks.map fun outer => outer.body.blocks.flatMap fun inner =>
    inner.body.attributes.map fun e =>
      ((e.2.value .string).run.run ()).1.map Report.result

/-- The inner rules have the elements of their own collections. -/
theorem meaning_expand_nested : nestedRules.singleLabels ∧
    ∃ body, (isolated.expandIn [] nestedRules rules).run.run () = (.ok ⟨body, []⟩, ()) ∧
      namesOf body = [[.ok (.string "a"), .ok (.string "b")], [.ok (.string "c")]] := by
  have hlabels : nestedRules.singleLabels := rfl
  refine ⟨hlabels, ?_⟩
  rw [← meaning_expand isolated nestedRules rules hlabels]
  exact ⟨_, rfl, rfl⟩

end Scope

end StaticConfig
