import StaticConfig.Scope.Expansion

/-!
Lexical scoping of dynamic blocks. The iterators around an expression are kept in an environment,
innermost first, and no expression is changed. A body means its blocks, with the value that each
attribute has for any type that is asked for; the meaning of an expanded body is told from the
body as it is written.
-/
namespace StaticConfig

/-- The report with a function of its result. -/
def Report.map {α β : Type} (f : α → β) (r : Report α) : Report β :=
  ⟨f r.result, r.diags⟩

/-- An attribute by its value for any type that is asked for. -/
structure AttributeMeaning (ε σ : Type) where
  span : Span
  nameSpan : Span
  name : String
  exprSpan : Span
  value : Ty → Resolving ε σ (Report Value)

mutual

/-- A body whose attributes are given by their values. -/
structure BodyMeaning (ε σ : Type) where
  span : Span
  attributes : Fields (AttributeMeaning ε σ)
  blocks : List (BlockMeaning ε σ)

structure BlockMeaning (ε σ : Type) where
  span : Span
  definition : Span
  type : String
  labels : List String
  labelSpans : List Span
  body : BodyMeaning ε σ

end

namespace Attribute

variable {ε σ : Type}

/-- What the attribute means where expressions have these values. -/
def meaning (value : Expr → Ty → Resolving ε σ (Report Value)) (a : Attribute) :
    AttributeMeaning ε σ :=
  ⟨a.span, a.nameSpan, a.name, a.expr.span, value a.expr⟩

end Attribute

namespace Body

mutual

/-- Every dynamic block in the body has exactly one label. -/
def singleLabels : Body → Bool
  | ⟨_, _, blocks⟩ => singleLabelsAll blocks

def singleLabelsAll : List Block → Bool
  | [] => true
  | ⟨_, _, type, labels, _, body⟩ :: bs =>
    (type != "dynamic" || labels.length == 1) && body.singleLabels && singleLabelsAll bs

end

theorem singleLabels_eq (body : Body) : body.singleLabels = singleLabelsAll body.blocks := by
  cases body
  rfl

theorem depth_eq (body : Body) : body.depth = blocksDepth body.blocks := by
  cases body
  rfl

theorem singleLabels_of_mem {b : Block} {blocks : List Block} (h : singleLabelsAll blocks)
    (hb : b ∈ blocks) : (b.type = "dynamic" → ∃ type, b.labels = [type]) ∧ b.body.singleLabels := by
  induction blocks with
  | nil => cases hb
  | cons c blocks ih =>
    obtain ⟨span, definition, type, labels, labelSpans, body⟩ := c
    rw [singleLabelsAll, Bool.and_eq_true, Bool.and_eq_true, Bool.or_eq_true] at h
    obtain ⟨⟨hlabels, hbody⟩, hblocks⟩ := h
    cases hb with
    | head =>
      refine ⟨fun htype => ?_, hbody⟩
      have hlength : labels.length = 1 :=
        eq_of_beq (hlabels.resolve_left fun hne => bne_iff_ne.1 hne htype)
      exact List.length_eq_one_iff.1 hlength
    | tail _ hb => exact ih hblocks hb

theorem depth_lt_of_mem {b : Block} {blocks : List Block} (hb : b ∈ blocks) :
    b.body.depth < blocksDepth blocks := by
  induction blocks with
  | nil => cases hb
  | cons c blocks ih =>
    obtain ⟨span, definition, type, labels, labelSpans, body⟩ := c
    rw [blocksDepth]
    cases hb with
    | head => exact Nat.lt_of_lt_of_le (Nat.lt_succ_self _) (Nat.le_max_left _ _)
    | tail _ hb => exact Nat.lt_of_lt_of_le (ih hb) (Nat.le_max_right _ _)

end Body

namespace DynamicBlock

variable {b : Block} {type : String} {d : DynamicBlock}

/-- The name of the iterator of a dynamic block that stands for blocks of the type. -/
def iteratorName? (b : Block) (type : String) : Option String :=
  match b.body.expr? "iterator" with
  | some e => e.keyword?
  | none => some type

theorem of_withLabels {collection : Expr} {iterator : String} {content : Body}
    (h : ofBlock.withLabels b collection iterator content = .ok d) :
    d.iterator = iterator ∧ d.content = content := by
  unfold ofBlock.withLabels at h
  split at h
  · cases h
    exact ⟨rfl, rfl⟩
  · cases h
    exact ⟨rfl, rfl⟩
  · cases h

/-- The content is the body of a block in the dynamic one, and the iterator has its name. -/
theorem of_ofBlock (h : ofBlock b type = .ok d) :
    (∃ c ∈ b.body.blocks, c.body = d.content) ∧ iteratorName? b type = some d.iterator := by
  unfold ofBlock at h
  split at h
  · cases h
  · split at h
    · cases h
    · rename_i c hc
      have hmem : c ∈ b.body.blocks := List.mem_of_find?_eq_some hc
      unfold iteratorName?
      cases hi : b.body.expr? "iterator" with
      | none =>
        rw [hi] at h
        obtain ⟨hiterator, hcontent⟩ := of_withLabels h
        exact ⟨⟨c, hmem, hcontent.symm⟩, congrArg some hiterator.symm⟩
      | some e =>
        rw [hi] at h
        cases hk : e.keyword? with
        | none =>
          simp only [Option.map_some, hk] at h
          cases h
        | some name =>
          simp only [Option.map_some, hk] at h
          obtain ⟨hiterator, hcontent⟩ := of_withLabels h
          exact ⟨⟨c, hmem, hcontent.symm⟩, hk.trans (congrArg some hiterator.symm)⟩

theorem sizeOf_body_lt (b : Block) : sizeOf b.body < sizeOf b := by
  cases b
  simp only [Block.mk.sizeOf_spec]
  omega

theorem sizeOf_blocks_lt (body : Body) : sizeOf body.blocks < sizeOf body := by
  cases body
  simp only [Body.mk.sizeOf_spec]
  omega

theorem sizeOf_content_lt (h : ofBlock b type = .ok d) : sizeOf d.content < sizeOf b := by
  obtain ⟨⟨c, hc, hcontent⟩, -⟩ := of_ofBlock h
  rw [← hcontent]
  calc sizeOf c.body < sizeOf c := sizeOf_body_lt c
    _ < sizeOf b.body.blocks := List.sizeOf_lt_of_mem hc
    _ < sizeOf b.body := sizeOf_blocks_lt b.body
    _ < sizeOf b := sizeOf_body_lt b

end DynamicBlock

namespace Scope

variable {ε σ : Type}

/-- Evaluates the expression where the names in the environment are bound. -/
def evalIn (s : Scope ε σ) (env : Env) (e : Expr) (want : Ty) : Resolving ε σ (Report Value) := do
  let found := References.ofExpr (env.map Prod.fst) e
  let ds := found.diags ++ s.source.validate found.refs s.selfSubject s.owner
  let roots ← lookupAll s.source .empty ds (distinctFrom [] found.refs)
  if Diagnostics.hasErrors roots.diags then pure ⟨.unknown want, roots.diags⟩
  else
    let r := Eval.eval ⟨s.library, s.pureOnly⟩ (env ++ roots.result.env) e
    pure (finish want e.span ⟨r.result, roots.diags ++ r.diags⟩)

/-- The texts of labels, if all are known. -/
def evalLabelsIn (s : Scope ε σ) (env : Env) :
    List Expr → Resolving ε σ (Report (Option (List String)))
  | [] => pure ⟨some [], []⟩
  | e :: es => do
    let r ← s.evalIn env e .string
    let rest ← evalLabelsIn s env es
    match r.result.bare with
    | .string text => pure ⟨rest.result.map (text :: ·), r.diags ++ rest.diags⟩
    | .unknown _ => pure ⟨none, r.diags ++ rest.diags⟩
    | _ => pure ⟨none, r.diags ++ [nullLabel e.span] ++ rest.diags⟩

mutual

/-- What a body means outside of dynamic blocks. -/
def meaning (s : Scope ε σ) : Body → BodyMeaning ε σ
  | ⟨span, attributes, blocks⟩ =>
    ⟨span, Fields.mapValues (Attribute.meaning s.eval) attributes, blockMeanings s blocks⟩

def blockMeanings (s : Scope ε σ) : List Block → List (BlockMeaning ε σ)
  | [] => []
  | ⟨span, definition, type, labels, labelSpans, body⟩ :: bs =>
    ⟨span, definition, type, labels, labelSpans, meaning s body⟩ :: blockMeanings s bs

end

mutual

/-- What a body means that is not expanded. The `for_each` of a dynamic block is in the outer
environment, all else in the inner one. -/
def meaningIn (s : Scope ε σ) (outer inner : Env) : Body → BodyMeaning ε σ
  | ⟨span, attributes, blocks⟩ =>
    ⟨span, attributes.map fun e =>
        (e.1, e.2.meaning (s.evalIn (if e.1 = "for_each" then outer else inner))),
      blockMeaningsIn s inner blocks⟩

def blockMeaningsIn (s : Scope ε σ) (env : Env) : List Block → List (BlockMeaning ε σ)
  | [] => []
  | ⟨span, definition, type, labels, labelSpans, body⟩ :: bs =>
    let b : Block := ⟨span, definition, type, labels, labelSpans, body⟩
    ⟨span, definition, type, labels, labelSpans,
      meaningIn s env (env.filter fun bound => !b.hides bound.1) body⟩ :: blockMeaningsIn s env bs

end

/-- The blocks for the elements, in order. The labels and the content of a block are in the
environment in which the iterator stands for its element. -/
def generateIn (s : Scope ε σ) (env : Env)
    (expand : Env → Resolving ε σ (Report (BodyMeaning ε σ))) (b : Block) (type : String)
    (d : DynamicBlock) :
    List (Value × Value) → Resolving ε σ (Report (List (BlockMeaning ε σ)))
  | [] => pure ⟨[], []⟩
  | e :: es => do
    let inside : Env := (d.iterator, DynamicBlock.iteratorValue e) :: env
    let texts ← s.evalLabelsIn inside d.labels
    match texts.result with
    | none => do
      let rest ← generateIn s env expand b type d es
      pure ⟨rest.result, texts.diags ++ rest.diags⟩
    | some texts' => do
      let body ← expand inside
      let rest ← generateIn s env expand b type d es
      let made : BlockMeaning ε σ :=
        ⟨b.span, b.definition, type, texts', d.labels.map Expr.span, body.result⟩
      pure ⟨made :: rest.result, texts.diags ++ body.diags ++ rest.diags⟩

mutual

/-- What the expanded body means. -/
def expandIn (s : Scope ε σ) (env : Env) (body : Body) (schema : BodySchema) :
    Resolving ε σ (Report (BodyMeaning ε σ)) := do
  let blocks ← expandBlocksIn s env schema body.blocks
  pure ⟨⟨body.span, Fields.mapValues (Attribute.meaning (s.evalIn env)) body.attributes,
    blocks.result⟩, blocks.diags⟩
termination_by sizeOf body
decreasing_by exact DynamicBlock.sizeOf_blocks_lt body

def expandBlocksIn (s : Scope ε σ) (env : Env) (schema : BodySchema) (blocks : List Block) :
    Resolving ε σ (Report (List (BlockMeaning ε σ))) :=
  match blocks with
  | [] => pure ⟨[], []⟩
  | b :: bs => do
    let first ← expandBlockIn s env schema b
    let rest ← expandBlocksIn s env schema bs
    pure ⟨first.result ++ rest.result, first.diags ++ rest.diags⟩
termination_by sizeOf blocks

/-- The blocks that a block stands for: one for each element of its collection if it is a
dynamic block, else itself. -/
def expandBlockIn (s : Scope ε σ) (env : Env) (schema : BodySchema) (b : Block) :
    Resolving ε σ (Report (List (BlockMeaning ε σ))) :=
  match dynamicType? b with
  | none =>
    match schema.find? b.type with
    | none => pure ⟨s.blockMeaningsIn env [b], []⟩
    | some nested => do
      let body ← expandIn s env b.body nested
      pure ⟨[⟨b.span, b.definition, b.type, b.labels, b.labelSpans, body.result⟩], body.diags⟩
  | some type =>
    match schema.find? type with
    | none => pure ⟨s.blockMeaningsIn env [b], []⟩
    | some nested =>
      match _h : DynamicBlock.ofBlock b type with
      | .error problem => pure ⟨[], [problem]⟩
      | .ok d => do
        let r ← s.evalIn env d.collection .dynamic
        match DynamicBlock.elements r.result.bare d.collection.span with
        | .error problem => pure ⟨[], r.diags ++ [problem]⟩
        | .ok es => do
          let blocks ← s.generateIn env (expandIn s · d.content nested) b type d es
          pure ⟨blocks.result, r.diags ++ blocks.diags⟩
termination_by sizeOf b
decreasing_by
  · exact DynamicBlock.sizeOf_body_lt b
  · exact DynamicBlock.sizeOf_content_lt ‹_›

end

end Scope

end StaticConfig
