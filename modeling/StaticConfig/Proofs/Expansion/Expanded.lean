import StaticConfig.Proofs.Expansion.Agreement
import StaticConfig.Proofs.Resolution.Steady

/-!
What an expanded body is made of, and that nothing in it is left to expand. Blocks stand in the
order of the blocks they come from: a dynamic block gives place to the blocks for its elements, in
the order of the elements, and every other block stays. The states of the data source on the way are
followed, so the relations below hold for sources that answer differently each time.
-/
namespace StaticConfig

namespace Body

variable {x : String} {v : Value}

mutual

theorem depth_substitute (x : String) (v : Value) : ∀ body : Body,
    (body.substitute x v).depth = body.depth
  | ⟨_, _, blocks⟩ => by
    rw [substitute, depth, depth]
    exact blocksDepth_substitute x v blocks

theorem blocksDepth_substitute (x : String) (v : Value) : ∀ blocks : List Block,
    blocksDepth (substituteBlocks x v blocks) = blocksDepth blocks
  | [] => rfl
  | ⟨span, definition, type, labels, labelSpans, body⟩ :: bs => by
    rw [substituteBlocks, blocksDepth, blocksDepth, blocksDepth_substitute x v bs]
    split
    · rw [depth_eq, ← depth_eq body]
    · rw [depth_substitute x v body]

end

end Body

theorem Resolving.exists_of_run_bind {ε σ α β : Type} {m : Resolving ε σ α}
    {f : α → Resolving ε σ β} {st st' : σ} {b : β}
    (h : (m >>= f).run.run st = (.ok b, st')) :
    ∃ a st₁, m.run.run st = (.ok a, st₁) ∧ (f a).run.run st₁ = (.ok b, st') := by
  rw [run_bind] at h
  split at h
  · next a st₁ hm => exact ⟨a, st₁, hm, h⟩
  · cases h

namespace BodySchema

/-- No block type `dynamic` at any level. -/
inductive NamesNoDynamic : BodySchema → Prop
  | mk {schema : BodySchema} : schema.find? "dynamic" = none →
      (∀ type nested, schema.find? type = some nested → nested.NamesNoDynamic) →
      NamesNoDynamic schema

theorem NamesNoDynamic.of_forall {schema : BodySchema}
    (h : ∀ e ∈ schema.blocks, e.1 ≠ "dynamic" ∧ e.2.NamesNoDynamic) : schema.NamesNoDynamic := by
  have hmem {type : String} {nested : BodySchema} (hfind : schema.find? type = some nested) :
      (type, nested) ∈ schema.blocks := by
    rw [find?, Fields.lookup_eq_get?] at hfind
    exact Fields.mem_of_get? hfind
  constructor
  · cases hfind : schema.find? "dynamic" with
    | none => rfl
    | some nested => exact absurd rfl (h _ (hmem hfind)).1
  · exact fun type nested hfind => (h _ (hmem hfind)).2

end BodySchema

namespace Scope

variable {ε σ : Type}

/-- The texts of labels that are evaluated in order, if all of them are known. -/
inductive Texts (s : Scope ε σ) : List Expr → σ → Option (List String) → σ → Prop
  | nil {st : σ} : Texts s [] st (some []) st
  | known {e : Expr} {es : List Expr} {st st₁ st₂ : σ} {r : Report Value} {text : String}
      {texts : Option (List String)} : (s.eval e .string).run.run st = (.ok r, st₁) →
      r.result.bare = .string text → Texts s es st₁ texts st₂ →
      Texts s (e :: es) st (texts.map (text :: ·)) st₂
  | unknown {e : Expr} {es : List Expr} {st st₁ st₂ : σ} {r : Report Value}
      {texts : Option (List String)} : (s.eval e .string).run.run st = (.ok r, st₁) →
      (∀ text, r.result.bare ≠ .string text) → Texts s es st₁ texts st₂ →
      Texts s (e :: es) st none st₂

mutual

/-- The expansion of a body changes its blocks and nothing else. -/
inductive Expands (s : Scope ε σ) : BodySchema → Body → σ → Body → σ → Prop
  | mk {schema : BodySchema} {body : Body} {st st' : σ} {blocks : List Block} :
      Replaces s schema body.blocks st blocks st' →
      Expands s schema body st { body with blocks := blocks } st'

/-- Each of the blocks gives place to blocks of its own. -/
inductive Replaces (s : Scope ε σ) : BodySchema → List Block → σ → List Block → σ → Prop
  | nil {schema : BodySchema} {st : σ} : Replaces s schema [] st [] st
  | outside {schema : BodySchema} {b : Block} {bs bs' : List Block} {st st' : σ} :
      schema.find? ((dynamicType? b).getD b.type) = none → Replaces s schema bs st bs' st' →
      Replaces s schema (b :: bs) st (b :: bs') st'
  | inside {schema nested : BodySchema} {b : Block} {bs bs' : List Block} {body : Body}
      {st st₁ st₂ : σ} : dynamicType? b = none → schema.find? b.type = some nested →
      Expands s nested b.body st body st₁ → Replaces s schema bs st₁ bs' st₂ →
      Replaces s schema (b :: bs) st ({ b with body := body } :: bs') st₂
  | dynamic {schema nested : BodySchema} {b : Block} {bs bs' made : List Block} {type : String}
      {st st₁ st₂ : σ} : dynamicType? b = some type → schema.find? type = some nested →
      StandsFor s nested b type st made st₁ → Replaces s schema bs st₁ bs' st₂ →
      Replaces s schema (b :: bs) st (made ++ bs') st₂

/-- The blocks that a dynamic block stands for. -/
inductive StandsFor (s : Scope ε σ) : BodySchema → Block → String → σ → List Block → σ → Prop
  | malformed {nested : BodySchema} {b : Block} {type : String} {problem : Diagnostic} {st : σ} :
      DynamicBlock.ofBlock b type = .error problem → StandsFor s nested b type st [] st
  | notIterable {nested : BodySchema} {b : Block} {type : String} {d : DynamicBlock}
      {r : Report Value} {problem : Diagnostic} {st st' : σ} :
      DynamicBlock.ofBlock b type = .ok d →
      (s.eval d.collection .dynamic).run.run st = (.ok r, st') →
      DynamicBlock.elements r.result.bare d.collection.span = .error problem →
      StandsFor s nested b type st [] st'
  | elements {nested : BodySchema} {b : Block} {type : String} {d : DynamicBlock}
      {r : Report Value} {es : List (Value × Value)} {made : List Block} {st st₁ st₂ : σ} :
      DynamicBlock.ofBlock b type = .ok d →
      (s.eval d.collection .dynamic).run.run st = (.ok r, st₁) →
      DynamicBlock.elements r.result.bare d.collection.span = .ok es →
      Generates s nested b type d es st₁ made st₂ → StandsFor s nested b type st made st₂

/-- One block for each element whose labels are all known, in the order of the elements. -/
inductive Generates (s : Scope ε σ) : BodySchema → Block → String → DynamicBlock →
    List (Value × Value) → σ → List Block → σ → Prop
  | nil {nested : BodySchema} {b : Block} {type : String} {d : DynamicBlock} {st : σ} :
      Generates s nested b type d [] st [] st
  | left {nested : BodySchema} {b : Block} {type : String} {d : DynamicBlock} {e : Value × Value}
      {es : List (Value × Value)} {made : List Block} {st st₁ st₂ : σ} :
      Texts s (Expr.substituteAll d.iterator (DynamicBlock.iteratorValue e) d.labels) st none st₁ →
      Generates s nested b type d es st₁ made st₂ →
        Generates s nested b type d (e :: es) st made st₂
  | made {nested : BodySchema} {b : Block} {type : String} {d : DynamicBlock} {e : Value × Value}
      {es : List (Value × Value)} {texts : List String} {body : Body} {made : List Block}
      {st st₁ st₂ st₃ : σ} :
      Texts s (Expr.substituteAll d.iterator (DynamicBlock.iteratorValue e) d.labels) st
        (some texts) st₁ →
      Expands s nested (d.content.substitute d.iterator (DynamicBlock.iteratorValue e)) st₁ body
        st₂ →
      Generates s nested b type d es st₂ made st₃ →
      Generates s nested b type d (e :: es) st
        (⟨b.span, b.definition, type, texts,
          (Expr.substituteAll d.iterator (DynamicBlock.iteratorValue e) d.labels).map Expr.span,
          body⟩ :: made) st₃

end

/-- The block is in the body, at the top or inside blocks that the schema names, and `level` is the
schema that applies there. -/
inductive Reaches : BodySchema → Body → BodySchema → Block → Prop
  | here {schema : BodySchema} {body : Body} {b : Block} :
      b ∈ body.blocks → Reaches schema body schema b
  | within {schema nested level : BodySchema} {body : Body} {b c : Block} :
      b ∈ body.blocks → schema.find? b.type = some nested → Reaches nested b.body level c →
      Reaches schema body level c

/-- A dynamic block that the schema lets stand for others. -/
def Expandable (schema : BodySchema) (b : Block) : Prop :=
  ∃ type nested, dynamicType? b = some type ∧ schema.find? type = some nested

/-- Nothing in the body is left to expand. -/
def Expanded (schema : BodySchema) (body : Body) : Prop :=
  ∀ level b, Reaches schema body level b → ¬ Expandable level b

variable {s : Scope ε σ}

/-! The expansion is as described. -/

theorem texts_of_run {es : List Expr} {st st' : σ} {r : Report (Option (List String))}
    (h : (s.evalLabels es).run.run st = (.ok r, st')) : s.Texts es st r.result st' := by
  induction es generalizing st st' r with
  | nil =>
    cases h
    exact .nil
  | cons e es ih =>
    obtain ⟨v, st₁, hv, h⟩ := Resolving.exists_of_run_bind h
    obtain ⟨rest, st₂, hrest, h⟩ := Resolving.exists_of_run_bind h
    split at h
    · next text htext =>
      cases h
      exact .known hv htext (ih hrest)
    · next t ht =>
      cases h
      exact .unknown hv (fun text htext => by simp [ht] at htext) (ih hrest)
    · next hnot _ =>
      cases h
      exact .unknown hv (fun text htext => hnot text htext) (ih hrest)

/-- The expansion of bodies whose blocks are nested less than `fuel` deep is as described. -/
def ExpandsWithin (s : Scope ε σ) (fuel : Nat) : Prop :=
  ∀ {body : Body} {schema : BodySchema} {st st' : σ} {r : Report Body}, body.depth < fuel →
    (s.expandWithin fuel body schema).run.run st = (.ok r, st') →
    s.Expands schema body st r.result st'

section Described

variable {fuel : Nat} {b : Block} {nested schema : BodySchema} {type : String} {d : DynamicBlock}
  {st st' : σ}

theorem generates_of_run (ih : s.ExpandsWithin fuel) (hdepth : d.content.depth < fuel)
    {es : List (Value × Value)} {r : Report (List Block)}
    (h : (s.generate (s.expandWithin fuel · nested) b type d es).run.run st = (.ok r, st')) :
    s.Generates nested b type d es st r.result st' := by
  induction es generalizing st st' r with
  | nil =>
    cases h
    exact .nil
  | cons e es ihes =>
    obtain ⟨texts, st₁, htexts, h⟩ := Resolving.exists_of_run_bind h
    have htexts := texts_of_run htexts
    split at h
    · next hnone =>
      obtain ⟨rest, st₂, hrest, h⟩ := Resolving.exists_of_run_bind h
      have hmade := ihes hrest
      cases h
      exact .left (hnone ▸ htexts) hmade
    · next texts' hsome =>
      obtain ⟨body, st₂, hbody, h⟩ := Resolving.exists_of_run_bind h
      obtain ⟨rest, st₃, hrest, h⟩ := Resolving.exists_of_run_bind h
      have hmade := ihes hrest
      cases h
      refine .made (hsome ▸ htexts) (ih ?_ hbody) hmade
      rw [Body.depth_substitute]
      exact hdepth

theorem standsFor_of_run (ih : s.ExpandsWithin fuel) (hdepth : b.body.depth < fuel)
    {r : Report (List Block)}
    (h : (s.expandDynamic (s.expandWithin fuel · nested) b type).run.run st = (.ok r, st')) :
    s.StandsFor nested b type st r.result st' := by
  unfold expandDynamic at h
  split at h
  · next problem hd =>
    cases h
    exact .malformed hd
  next d hd =>
  obtain ⟨v, st₁, hv, h⟩ := Resolving.exists_of_run_bind h
  split at h
  · next problem hes =>
    cases h
    exact .notIterable hd hv hes
  · next es hes =>
    obtain ⟨blocks, st₂, hblocks, h⟩ := Resolving.exists_of_run_bind h
    obtain ⟨⟨c, hc, hcontent⟩, -⟩ := DynamicBlock.of_ofBlock hd
    have hcdepth : d.content.depth < fuel := by
      rw [← hcontent]
      rw [Body.depth_eq] at hdepth
      exact Nat.lt_trans (Body.depth_lt_of_mem hc) hdepth
    have hmade := generates_of_run ih hcdepth hblocks
    cases h
    exact .elements hd hv hes hmade

theorem replaces_of_run (ih : s.ExpandsWithin fuel) {bs : List Block}
    (hdepth : ∀ b ∈ bs, b.body.depth < fuel) {r : Report (List Block)}
    (h : (s.expandBlocks (s.expandWithin fuel) schema bs).run.run st = (.ok r, st')) :
    s.Replaces schema bs st r.result st' := by
  induction bs generalizing st st' r with
  | nil =>
    cases h
    exact .nil
  | cons b bs ihbs =>
    obtain ⟨hb, hbs⟩ := List.forall_mem_cons.1 hdepth
    rw [expandBlocks_cons] at h
    obtain ⟨first, st₁, hfirst, h⟩ := Resolving.exists_of_run_bind h
    obtain ⟨rest, st₂, hrest, h⟩ := Resolving.exists_of_run_bind h
    cases h
    have hrest := ihbs hbs hrest
    unfold expandBlock at hfirst
    dsimp only at hfirst
    split at hfirst
    · next hnone =>
      cases hfirst
      exact .outside hnone hrest
    next nested hnested =>
    cases htype : dynamicType? b with
    | none =>
      rw [htype] at hfirst hnested
      obtain ⟨body, st₃, hbody, hfirst⟩ := Resolving.exists_of_run_bind hfirst
      cases hfirst
      exact .inside htype hnested (ih hb hbody) hrest
    | some type =>
      rw [htype] at hfirst hnested
      exact .dynamic htype hnested (standsFor_of_run ih hb hfirst) hrest

end Described

theorem expandsWithin (s : Scope ε σ) (fuel : Nat) : s.ExpandsWithin fuel := by
  induction fuel with
  | zero => exact fun hdepth => absurd hdepth (Nat.not_lt_zero _)
  | succ fuel ih =>
    intro body schema st st' r hdepth h
    rw [Body.depth_eq] at hdepth
    obtain ⟨blocks, st₁, hblocks, h⟩ := Resolving.exists_of_run_bind h
    cases h
    refine .mk (replaces_of_run ih (fun b hb => ?_) hblocks)
    exact Nat.lt_of_lt_of_le (Body.depth_lt_of_mem hb) (Nat.le_of_lt_succ hdepth)

/-! Nothing is left to expand. -/

variable {schema nested : BodySchema} {body : Body}

/-- Neither is the block expandable, nor anything in it, where the schema says what is in it. -/
def Settled (schema : BodySchema) (b : Block) : Prop :=
  ¬ Expandable schema b ∧ ∀ nested, schema.find? b.type = some nested → Expanded nested b.body

theorem expanded_iff : Expanded schema body ↔ ∀ b ∈ body.blocks, Settled schema b := by
  constructor
  · intro h b hb
    exact ⟨h _ b (.here hb), fun nested hnested level c hc => h level c (.within hb hnested hc)⟩
  · intro h level c hc
    cases hc with
    | here hb => exact (h c hb).1
    | within hb hnested hc => exact (h _ hb).2 _ hnested level c hc

theorem settled_of_find?_eq_none (hschema : schema.NamesNoDynamic) {b : Block}
    (h : schema.find? ((dynamicType? b).getD b.type) = none) : Settled schema b := by
  obtain ⟨hdynamic, -⟩ := hschema
  constructor
  · rintro ⟨type, nested, htype, hnested⟩
    rw [htype, Option.getD_some, hnested] at h
    cases h
  · intro nested hnested
    cases htype : dynamicType? b with
    | none =>
      rw [htype, Option.getD_none, hnested] at h
      cases h
    | some type =>
      obtain ⟨hb, -⟩ := DynamicBlock.of_dynamicType? htype
      rw [hb, hdynamic] at hnested
      cases hnested

/-- A block of a type that the schema names stands for itself. -/
theorem settled_of_find?_eq_some (hschema : schema.NamesNoDynamic) {b : Block}
    (hnested : schema.find? b.type = some nested) (hbody : Expanded nested b.body) :
    Settled schema b := by
  obtain ⟨hdynamic, -⟩ := hschema
  constructor
  · rintro ⟨type, _, htype, -⟩
    obtain ⟨hb, -⟩ := DynamicBlock.of_dynamicType? htype
    rw [hb, hdynamic] at hnested
    cases hnested
  · intro nested' hnested'
    rw [hnested] at hnested'
    cases hnested'
    exact hbody

theorem Expands.attributes {st st' : σ} {body' : Body} (h : s.Expands schema body st body' st') :
    body'.attributes = body.attributes := by
  cases h
  rfl

mutual

theorem Expands.expanded {st st' : σ} {schema : BodySchema} {body body' : Body}
    (h : s.Expands schema body st body' st') (hschema : schema.NamesNoDynamic) :
    Expanded schema body' :=
  match h with
  | .mk hblocks => expanded_iff.2 (hblocks.settled hschema)

theorem Replaces.settled {st st' : σ} {schema : BodySchema} {bs bs' : List Block}
    (h : s.Replaces schema bs st bs' st') (hschema : schema.NamesNoDynamic) :
    ∀ b ∈ bs', Settled schema b :=
  match h with
  | .nil => List.forall_mem_nil _
  | .outside hnone hrest =>
    List.forall_mem_cons.2 ⟨settled_of_find?_eq_none hschema hnone, hrest.settled hschema⟩
  | .inside _ hnested hbody hrest =>
    have ⟨_, hinner⟩ := hschema
    List.forall_mem_cons.2 ⟨settled_of_find?_eq_some hschema hnested
      (hbody.expanded (hinner _ _ hnested)), hrest.settled hschema⟩
  | .dynamic _ hnested hmade hrest =>
    have ⟨_, hinner⟩ := hschema
    List.forall_mem_append.2 ⟨fun b hb =>
      have ⟨htype, hbody⟩ := hmade.expanded (hinner _ _ hnested) b hb
      settled_of_find?_eq_some hschema (htype ▸ hnested) hbody, hrest.settled hschema⟩

theorem StandsFor.expanded {st st' : σ} {nested : BodySchema} {b : Block} {type : String}
    {made : List Block} (h : s.StandsFor nested b type st made st')
    (hschema : nested.NamesNoDynamic) : ∀ c ∈ made, c.type = type ∧ Expanded nested c.body :=
  match h with
  | .malformed _ => List.forall_mem_nil _
  | .notIterable _ _ _ => List.forall_mem_nil _
  | .elements _ _ _ hmade => hmade.expanded hschema

theorem Generates.expanded {st st' : σ} {nested : BodySchema} {b : Block} {type : String}
    {d : DynamicBlock} {es : List (Value × Value)} {made : List Block}
    (h : s.Generates nested b type d es st made st') (hschema : nested.NamesNoDynamic) :
    ∀ c ∈ made, c.type = type ∧ Expanded nested c.body :=
  match h with
  | .nil => List.forall_mem_nil _
  | .left _ hrest => hrest.expanded hschema
  | .made _ hbody hrest =>
    List.forall_mem_cons.2 ⟨⟨rfl, hbody.expanded hschema⟩, hrest.expanded hschema⟩

end

theorem expandBlock_of_settled {expand : Body → BodySchema → Resolving ε σ (Report Body)}
    {b : Block}
    (hexpand : ∀ {body schema}, Expanded schema body → expand body schema = pure ⟨body, []⟩)
    (hb : Settled schema b) : s.expandBlock expand schema b = pure ⟨[b], []⟩ := by
  obtain ⟨hnot, hinner⟩ := hb
  unfold expandBlock
  cases htype : dynamicType? b with
  | none =>
    simp only [Option.getD_none, Option.isSome_none, Bool.false_eq_true, if_false]
    cases hnested : schema.find? b.type with
    | none => rfl
    | some nested =>
      simp only
      rw [hexpand (hinner nested hnested), pure_bind]
      cases b
      rfl
  | some type =>
    simp only [Option.getD_some]
    cases hnested : schema.find? type with
    | none => rfl
    | some nested => exact absurd ⟨type, nested, htype, hnested⟩ hnot

/-- In an expanded body there is nothing to do, whatever the source. -/
theorem expandWithin_of_expanded (s : Scope ε σ) (fuel : Nat) :
    ∀ {body : Body} {schema : BodySchema}, Expanded schema body →
      s.expandWithin fuel body schema = pure ⟨body, []⟩ := by
  induction fuel with
  | zero => exact fun _ => rfl
  | succ fuel ih =>
    intro body schema h
    have hblocks : ∀ bs : List Block, (∀ b ∈ bs, Settled schema b) →
        s.expandBlocks (s.expandWithin fuel) schema bs = pure ⟨bs, []⟩ := by
      intro bs
      induction bs with
      | nil => exact fun _ => rfl
      | cons b bs ihbs =>
        intro hbs
        obtain ⟨hb, hbs⟩ := List.forall_mem_cons.1 hbs
        rw [expandBlocks_cons, expandBlock_of_settled (fun h => ih h) hb, ihbs hbs, pure_bind,
          pure_bind]
        rfl
    rw [expandWithin, hblocks body.blocks (expanded_iff.1 h), pure_bind]
    cases body
    rfl

/-- Expansion changes the blocks of a body and nothing else: each dynamic block that the schema
names gives place to the blocks for its elements, in their order, and the other blocks stay. Nothing
is left to expand, at any level, so the expanded body is its own expansion, without a diagnostic and
without a question to any source. -/
theorem expands_of_expand {st st' : σ} {r : Report Body} (hschema : schema.NamesNoDynamic)
    (h : (s.expand body schema).run.run st = (.ok r, st')) :
    s.Expands schema body st r.result st' ∧ r.result.attributes = body.attributes ∧
      Expanded schema r.result ∧
      ∀ {ε' σ' : Type} (s' : Scope ε' σ'), s'.expand r.result schema = pure ⟨r.result, []⟩ := by
  have hexpands := s.expandsWithin (body.depth + 1) (Nat.lt_succ_self _) h
  have hexpanded := hexpands.expanded hschema
  exact ⟨hexpands, hexpands.attributes, hexpanded,
    fun s' => expandWithin_of_expanded s' _ hexpanded⟩

/-- Rules in rules are expanded to rules in which nothing is left to expand. -/
theorem expands_of_expand_nested :
    ∃ r, (isolated.expand nestedRules rules).run.run () = (.ok r, ()) ∧
      isolated.Expands rules nestedRules () r.result () ∧
      r.result.attributes = nestedRules.attributes ∧ Expanded rules r.result ∧
      ∀ {ε' σ' : Type} (s' : Scope ε' σ'), s'.expand r.result rules = pure ⟨r.result, []⟩ := by
  have hnone : BodySchema.NamesNoDynamic ⟨[]⟩ := .of_forall (List.forall_mem_nil _)
  have hinner : BodySchema.NamesNoDynamic ⟨[("rule", ⟨[]⟩)]⟩ :=
    .of_forall (List.forall_mem_singleton.2 ⟨by decide, hnone⟩)
  have hrules : rules.NamesNoDynamic :=
    .of_forall (List.forall_mem_singleton.2 ⟨by decide, hinner⟩)
  exact ⟨_, rfl, expands_of_expand hrules rfl⟩

end Scope

end StaticConfig
