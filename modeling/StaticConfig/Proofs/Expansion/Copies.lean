import StaticConfig.Proofs.Conversion.Hereditary
import StaticConfig.Proofs.Expansion.Agreement
import StaticConfig.Proofs.Resolution.Steady
import StaticConfig.Proofs.Scoping.Wanted
import StaticConfig.Proofs.Sensitivity.Parts

/-!
Where the attributes of an expanded body come from. Each of them is an attribute of the body as it
is written, with elements of collections in place of the iterators around it. The marks of a
collection are taken off before its elements are, and none is put back: what an iterator stands for
has no mark, whatever the collection and its elements had.
-/
namespace StaticConfig

namespace DynamicBlock

theorem hasMark_elements {v : Value} {span : Span} {es : List (Value × Value)}
    (hv : v.hasMark = false) (h : elements v span = .ok es) :
    ∀ e ∈ es, e.1.hasMark = false ∧ e.2.hasMark = false := by
  unfold elements at h
  split at h
  · cases h
    intro e he
    obtain rfl := List.mem_singleton.1 he
    exact ⟨rfl, rfl⟩
  · cases h
  · split at h
    · next es' hes =>
      cases h
      exact Value.hasMark_iterated? hv hes
    · cases h

end DynamicBlock

namespace Resolving

variable {ε σ α β : Type} {P : α → Prop} {Q : β → Prop}

/-- Every result that the computation gives has the property. -/
def Returns (P : α → Prop) (m : Resolving ε σ α) : Prop :=
  ∀ s a s', m.run.run s = (.ok a, s') → P a

theorem returns_pure {a : α} (h : P a) : Returns P (pure a : Resolving ε σ α) := by
  intro s b s' hrun
  cases hrun
  exact h

theorem returns_run (m : Resolving ε σ α) :
    Returns (fun a => ∃ s s', m.run.run s = (.ok a, s')) m :=
  fun s _ s' hrun => ⟨s, s', hrun⟩

theorem returns_bind {m : Resolving ε σ α} {f : α → Resolving ε σ β} (hm : Returns P m)
    (hf : ∀ a, P a → Returns Q (f a)) : Returns Q (m >>= f) := by
  intro s b s' hrun
  rw [run_bind] at hrun
  split at hrun
  · rename_i a s'' hfirst
    exact hf a (hm s a s'' hfirst) s'' b s' hrun
  · cases hrun

end Resolving

namespace Body

/-- The attribute is in the body or in a block of it, at any depth. -/
inductive Has : Body → Attribute → Prop
  | own {body : Body} {name : String} {a : Attribute} :
      (name, a) ∈ body.attributes → Has body a
  | inner {body : Body} {b : Block} {a : Attribute} :
      b ∈ body.blocks → Has b.body a → Has body a

/-- The body of a block with values in place of names: the outer ones in what the block iterates
over, the inner ones elsewhere. -/
def placed (outer inner : Env) (body : Body) : Body :=
  ⟨body.span,
    body.attributes.map fun e =>
      (e.1, e.2.substituteEnv (if e.1 = "for_each" then outer else inner)),
    body.blocks.map (Block.substituteEnv · inner)⟩

theorem substituteEnv_eq_placed (body : Body) (env : Env) :
    body.substituteEnv env = body.placed env env := by
  rw [substituteEnv_eq, placed]
  simp only [ite_self]
  rfl

end Body

theorem Block.body_substituteEnv (b : Block) (env : Env) :
    (b.substituteEnv env).body = b.body.placed env (b.visible env) := by
  rw [Block.substituteEnv_eq]
  rfl

namespace Scope

variable {ε σ : Type}

/-- The pair is an element of what the collection evaluates to, without its marks. -/
def Yields (s : Scope ε σ) (collection : Expr) (e : Value × Value) : Prop :=
  ∃ st r st' es, (s.eval collection .dynamic).run.run st = (.ok r, st') ∧
    DynamicBlock.elements r.result.bare collection.span = .ok es ∧ e ∈ es

/-- What the schema says about the blocks inside of a block. -/
def inside (schema : BodySchema) (b : Block) : BodySchema :=
  (schema.find? ((dynamicType? b).getD b.type)).getD ⟨[]⟩

/-- The values that stand for names in the content of a block that is made for an element. -/
def bound (inner : Env) (b : Block) (iterator : String) (e : Value × Value) : Env :=
  b.visible inner ++ [(iterator, DynamicBlock.iteratorValue e)]

/-- The expansion of the body has the attribute with these values in place of names: an attribute
of the body itself, or one in a block that is not replaced, or one in the content of a dynamic
block, for one of its elements. -/
inductive Copies (s : Scope ε σ) : BodySchema → Env → Env → Body → Attribute → Env → Prop
  | own {schema : BodySchema} {outer inner : Env} {body : Body} {name : String} {a : Attribute} :
      (name, a) ∈ body.attributes →
      Copies s schema outer inner body a (if name = "for_each" then outer else inner)
  | kept {schema : BodySchema} {outer inner its : Env} {body : Body} {b : Block} {a : Attribute} :
      b ∈ body.blocks → (∀ type, dynamicType? b = some type → schema.find? type = none) →
      Copies s (inside schema b) inner (b.visible inner) b.body a its →
      Copies s schema outer inner body a its
  | element {schema nested : BodySchema} {outer inner its : Env} {body : Body} {b : Block}
      {type : String} {d : DynamicBlock} {e : Value × Value} {a : Attribute} :
      b ∈ body.blocks → dynamicType? b = some type → schema.find? type = some nested →
      DynamicBlock.ofBlock b type = .ok d → s.Yields (d.collection.substituteEnv inner) e →
      Copies s nested (bound inner b d.iterator e) (bound inner b d.iterator e) d.content a its →
      Copies s schema outer inner body a its

/-- The attribute is one that the expansion of the body has. -/
def CopyOf (s : Scope ε σ) (schema : BodySchema) (outer inner : Env) (body : Body)
    (a' : Attribute) : Prop :=
  ∃ a its, s.Copies schema outer inner body a its ∧ a' = a.substituteEnv its

/-- All attributes of the blocks are such that the expansion of the body has them. -/
def AllCopies (s : Scope ε σ) (schema : BodySchema) (outer inner : Env) (body : Body)
    (made : List Block) : Prop :=
  ∀ b ∈ made, ∀ a', b.body.Has a' → s.CopyOf schema outer inner body a'

variable {s : Scope ε σ} {schema nested : BodySchema} {outer inner : Env} {body : Body}
  {b : Block} {type : String} {d : DynamicBlock}

/-- Without a schema nothing is expanded. -/
theorem copyOf_placed {body' : Body} {a' : Attribute} (h : body'.Has a') :
    ∀ {outer inner : Env} {body : Body}, body' = body.placed outer inner →
      s.CopyOf ⟨[]⟩ outer inner body a' := by
  induction h with
  | own hmem =>
    intro outer inner body heq
    subst heq
    obtain ⟨⟨name, a⟩, ha, heq⟩ := List.mem_map.1 hmem
    cases heq
    exact ⟨a, _, .own ha, rfl⟩
  | inner hmem _ ih =>
    intro outer inner body heq
    subst heq
    obtain ⟨b, hb, rfl⟩ := List.mem_map.1 hmem
    obtain ⟨a, its, hcopies, ha⟩ := ih (b.body_substituteEnv inner)
    exact ⟨a, its, .kept hb (fun _ _ => rfl) hcopies, ha⟩

theorem returns_generate {expand : Body → Resolving ε σ (Report Body)} {es : List (Value × Value)}
    (hexpand : ∀ e ∈ es, Resolving.Returns
      (fun r => ∀ a', r.result.Has a' → s.CopyOf nested (bound inner b d.iterator e)
        (bound inner b d.iterator e) d.content a')
      (expand (d.content.substituteEnv (bound inner b d.iterator e)))) :
    Resolving.Returns
      (fun r => ∀ made ∈ r.result, ∀ a', made.body.Has a' → ∃ e ∈ es,
        s.CopyOf nested (bound inner b d.iterator e) (bound inner b d.iterator e) d.content a')
      (s.generate expand (b.substituteEnv inner) type (d.substituteEnv inner (b.visible inner))
        es) := by
  induction es with
  | nil => exact Resolving.returns_pure (List.forall_mem_nil _)
  | cons e es ih =>
    obtain ⟨hfirst, hrest⟩ := List.forall_mem_cons.1 hexpand
    have hcontent : (d.content.substituteEnv (b.visible inner)).substitute d.iterator
        (DynamicBlock.iteratorValue e) = d.content.substituteEnv (bound inner b d.iterator e) :=
      (Body.substituteEnv_append d.content (b.visible inner) [(d.iterator, _)]).symm
    unfold generate
    refine Resolving.returns_bind (Resolving.returns_run _) fun texts _ => ?_
    cases texts.result with
    | none =>
      refine Resolving.returns_bind (ih hrest) fun rest hrest => ?_
      apply Resolving.returns_pure
      intro made hmade a' ha'
      obtain ⟨e', he', hcopy⟩ := hrest made hmade a' ha'
      exact ⟨e', List.mem_cons_of_mem e he', hcopy⟩
    | some texts =>
      simp only [DynamicBlock.substituteEnv]
      rw [hcontent]
      refine Resolving.returns_bind hfirst fun made hmade => ?_
      refine Resolving.returns_bind (ih hrest) fun rest hrest => ?_
      apply Resolving.returns_pure
      intro made' hmem a' ha'
      cases hmem with
      | head => exact ⟨e, List.mem_cons_self, hmade a' ha'⟩
      | tail _ hmem =>
        obtain ⟨e', he', hcopy⟩ := hrest made' hmem a' ha'
        exact ⟨e', List.mem_cons_of_mem e he', hcopy⟩

/-- Expansion of bodies whose blocks are nested less than `fuel` deep gives copies only. -/
def GivesCopies (s : Scope ε σ) (fuel : Nat) : Prop :=
  ∀ (outer inner : Env) (body : Body) (schema : BodySchema), body.depth < fuel →
    Resolving.Returns (fun r => ∀ a', r.result.Has a' → s.CopyOf schema outer inner body a')
      (s.expandWithin fuel (body.placed outer inner) schema)

variable {fuel : Nat}

theorem returns_expandDynamic (ih : s.GivesCopies fuel) (hmem : b ∈ body.blocks)
    (hdepth : b.body.depth < fuel) (hb : dynamicType? b = some type)
    (hschema : schema.find? type = some nested) :
    Resolving.Returns (fun r => s.AllCopies schema outer inner body r.result)
      (s.expandDynamic (s.expandWithin fuel · nested) (b.substituteEnv inner) type) := by
  obtain ⟨htype, -⟩ := DynamicBlock.of_dynamicType? hb
  rw [expandDynamic, DynamicBlock.ofBlock_substituteEnv htype]
  cases hd : DynamicBlock.ofBlock b type with
  | error problem => exact Resolving.returns_pure (List.forall_mem_nil _)
  | ok d =>
    obtain ⟨⟨c, hc, hcontent⟩, -⟩ := DynamicBlock.of_ofBlock hd
    have hcdepth : d.content.depth < fuel := by
      rw [← hcontent]
      rw [Body.depth_eq] at hdepth
      exact Nat.lt_trans (Body.depth_lt_of_mem hc) hdepth
    have hexpand (e : Value × Value) : Resolving.Returns
        (fun r => ∀ a', r.result.Has a' → s.CopyOf nested (bound inner b d.iterator e)
          (bound inner b d.iterator e) d.content a')
        (s.expandWithin fuel (d.content.substituteEnv (bound inner b d.iterator e)) nested) := by
      rw [Body.substituteEnv_eq_placed]
      exact ih _ _ d.content nested hcdepth
    refine Resolving.returns_bind (Resolving.returns_run _) fun r hr => ?_
    obtain ⟨st, st', hrun⟩ := hr
    cases hes : DynamicBlock.elements r.result.bare (d.collection.substituteEnv inner).span with
    | error problem =>
      simp only [DynamicBlock.substituteEnv, hes]
      exact Resolving.returns_pure (List.forall_mem_nil _)
    | ok es =>
      simp only [DynamicBlock.substituteEnv, hes]
      refine Resolving.returns_bind (returns_generate fun e _ => hexpand e) fun blocks hblocks => ?_
      apply Resolving.returns_pure
      intro made hmade a' ha'
      obtain ⟨e, he, a, its, hcopies, ha⟩ := hblocks made hmade a' ha'
      exact ⟨a, its, .element hmem hb hschema hd ⟨st, r, st', es, hrun, hes, he⟩ hcopies, ha⟩

theorem returns_expandBlock (outer : Env) (ih : s.GivesCopies fuel) (hmem : b ∈ body.blocks)
    (hdepth : b.body.depth < fuel) :
    Resolving.Returns (fun r => s.AllCopies schema outer inner body r.result)
      (s.expandBlock (s.expandWithin fuel) schema (b.substituteEnv inner)) := by
  have hkept (hnot : ∀ type, dynamicType? b = some type → schema.find? type = none) {a' : Attribute}
      (h : s.CopyOf (inside schema b) inner (b.visible inner) b.body a') :
      s.CopyOf schema outer inner body a' := by
    obtain ⟨a, its, hcopies, ha⟩ := h
    exact ⟨a, its, .kept hmem hnot hcopies, ha⟩
  have htype : (b.substituteEnv inner).type = b.type := by
    rw [Block.substituteEnv_eq]
  have hdynamic : dynamicType? (b.substituteEnv inner) = dynamicType? b := by
    rw [Block.substituteEnv_eq]
    rfl
  rw [expandBlock, hdynamic, htype]
  cases hfound : schema.find? ((dynamicType? b).getD b.type) with
  | none =>
    apply Resolving.returns_pure
    intro made hmade a' ha'
    obtain rfl := List.mem_singleton.1 hmade
    apply hkept
    · intro type hb
      rwa [hb] at hfound
    · rw [inside, hfound]
      exact copyOf_placed ha' (b.body_substituteEnv inner)
  | some nested =>
    cases hb : dynamicType? b with
    | none =>
      have hbody := ih inner (b.visible inner) b.body nested hdepth
      rw [← b.body_substituteEnv inner] at hbody
      simp only [Option.isSome_none, Bool.false_eq_true, if_false]
      refine Resolving.returns_bind hbody fun r hr => ?_
      apply Resolving.returns_pure
      intro made hmade a' ha'
      obtain rfl := List.mem_singleton.1 hmade
      apply hkept
      · intro type htype
        rw [hb] at htype
        cases htype
      · rw [inside, hfound]
        exact hr a' ha'
    | some type =>
      rw [hb] at hfound
      simp only [Option.isSome_some, if_true, Option.getD_some]
      exact returns_expandDynamic ih hmem hdepth hb hfound

theorem returns_expandBlocks (outer : Env) (ih : s.GivesCopies fuel) {bs : List Block}
    (hmem : ∀ b ∈ bs, b ∈ body.blocks) (hdepth : ∀ b ∈ bs, b.body.depth < fuel) :
    Resolving.Returns (fun r => s.AllCopies schema outer inner body r.result)
      (s.expandBlocks (s.expandWithin fuel) schema (bs.map (Block.substituteEnv · inner))) := by
  induction bs with
  | nil => exact Resolving.returns_pure (List.forall_mem_nil _)
  | cons b bs ihb =>
    obtain ⟨hb, hbs⟩ := List.forall_mem_cons.1 hmem
    obtain ⟨hbdepth, hbsdepth⟩ := List.forall_mem_cons.1 hdepth
    rw [List.map_cons, expandBlocks_cons]
    refine Resolving.returns_bind (returns_expandBlock outer ih hb hbdepth) fun first hfirst => ?_
    refine Resolving.returns_bind (ihb hbs hbsdepth) fun rest hrest => ?_
    apply Resolving.returns_pure
    intro made hmade
    rcases List.mem_append.1 hmade with hmade | hmade
    · exact hfirst made hmade
    · exact hrest made hmade

/-- By induction on the fuel, over how deep blocks are nested. -/
theorem givesCopies (s : Scope ε σ) (fuel : Nat) : s.GivesCopies fuel := by
  induction fuel with
  | zero => exact fun _ _ _ _ hdepth => absurd hdepth (Nat.not_lt_zero _)
  | succ fuel ih =>
    intro outer inner body schema hdepth
    have hblocks : ∀ b ∈ body.blocks, b.body.depth < fuel := by
      intro b hb
      rw [Body.depth_eq] at hdepth
      exact Nat.lt_of_lt_of_le (Body.depth_lt_of_mem hb) (Nat.le_of_lt_succ hdepth)
    unfold expandWithin
    refine Resolving.returns_bind (returns_expandBlocks outer ih (fun _ hb => hb) hblocks) ?_
    intro r hr
    apply Resolving.returns_pure
    intro a' ha'
    cases ha' with
    | own ha' =>
      obtain ⟨⟨name, a⟩, ha, heq⟩ := List.mem_map.1 ha'
      cases heq
      exact ⟨a, _, .own ha, rfl⟩
    | inner hb ha' => exact hr _ hb a' ha'

/-- Every name stands for an element of a collection, without marks. -/
def OfElements (s : Scope ε σ) (its : Env) : Prop :=
  ∀ x v, (x, v) ∈ its → ∃ collection e, s.Yields collection e ∧ v = DynamicBlock.iteratorValue e

theorem OfElements.visible {its : Env} (h : s.OfElements its) (b : Block) :
    s.OfElements (b.visible its) :=
  fun x v hxv => h x v (List.mem_filter.1 hxv).1

theorem OfElements.bound {collection : Expr} {iterator : String} {e : Value × Value}
    (hinner : s.OfElements inner) (he : s.Yields collection e) :
    s.OfElements (bound inner b iterator e) := by
  intro x v hxv
  rcases List.mem_append.1 hxv with hxv | hxv
  · exact hinner.visible b x v hxv
  · cases List.mem_singleton.1 hxv
    exact ⟨collection, e, he, rfl⟩

theorem Copies.ofElements {a : Attribute} {its : Env}
    (h : s.Copies schema outer inner body a its) (houter : s.OfElements outer)
    (hinner : s.OfElements inner) : s.OfElements its := by
  induction h with
  | own _ =>
    split
    · exact houter
    · exact hinner
  | kept _ _ _ ih => exact ih hinner (hinner.visible _)
  | element _ _ _ _ he _ ih => exact ih (hinner.bound he) (hinner.bound he)

theorem Yields.hasMark {collection : Expr} {e : Value × Value} (h : s.Yields collection e) :
    e.1.hasMark = false ∧ e.2.hasMark = false := by
  obtain ⟨_, r, _, es, -, hes, he⟩ := h
  exact DynamicBlock.hasMark_elements (Value.hasMark_bare r.result) hes e he

/-- What evaluation makes of the value of an expression that refers to nothing. -/
def concludeClosed (s : Scope ε σ) (want : Ty) (span : Span) (v : Value) : Report Value :=
  let ds := s.source.validate [] s.selfSubject s.owner
  if Diagnostics.hasErrors ds then ⟨.unknown want, ds⟩ else finish want span ⟨v, ds⟩

theorem hasMark_concludeClosed {want : Ty} {span : Span} {v : Value} (h : v.hasMark = false) :
    (s.concludeClosed want span v).result.hasMark = false := by
  unfold concludeClosed finish
  by_cases hds : Diagnostics.hasErrors (s.source.validate [] s.selfSubject s.owner)
  · simp only [hds, if_true]
    rfl
  · simp only [hds]
    cases hv : v.convert want with
    | ok w => exact Value.Hereditary.unmarked.convert v h hv
    | error e => rfl

/-- Where its iterator stands for an element, the value of the iterator is that of the element. -/
theorem run_evalIn_iterator {its : Env} {x : String} {e : Value × Value}
    (h : its.lookup x = some (DynamicBlock.iteratorValue e)) (span range : Span) (want : Ty)
    (st : σ) :
    (s.evalIn its (.traversal span x [.attr range "value"]) want).run.run st =
      (.ok (s.concludeClosed want span e.2), st) := by
  have hmem : x ∈ its.map Prod.fst := by
    by_contra hnot
    rw [Eval.lookup_eq_none_iff_not_mem_keys.2 hnot] at h
    cases h
  have hfound : References.ofExpr (its.map Prod.fst) (.traversal span x [.attr range "value"]) =
      .empty := by
    rw [References.ofExpr, References.ofTraversal, if_pos (List.contains_iff_mem.2 hmem)]
  have hvalue (roots : Env) : Eval.eval ⟨s.library, s.pureOnly⟩ (its ++ roots)
      (.traversal span x [.attr range "value"]) = ⟨e.2, []⟩ := by
    apply Eval.eval_traversal_eq_clean.2
    refine ⟨DynamicBlock.iteratorValue e, ?_, rfl⟩
    rw [List.lookup_append, h]
    rfl
  unfold evalIn concludeClosed
  rw [hfound]
  simp only [References.empty, distinctFrom, lookupAll, pure_bind, hvalue, List.nil_append,
    List.append_nil]
  split
  · rfl
  · rfl

/-- In an expanded body, at any depth, an attribute that is written as the value of an iterator
evaluates to an element of what the dynamic block iterates over, and nothing in it is marked,
whatever was marked in the collection. -/
theorem unmarked_of_expand {st st' : σ} {r : Report Body} {a' : Attribute}
    (h : (s.expand body schema).run.run st = (.ok r, st')) (ha' : r.result.Has a') :
    ∃ a its, s.Copies schema [] [] body a its ∧ a' = a.substituteEnv its ∧
      ∀ span range x, a.expr = .traversal span x [.attr range "value"] → x ∈ its.map Prod.fst →
        ∃ collection e, s.Yields collection e ∧
          its.lookup x = some (DynamicBlock.iteratorValue e) ∧ e.2.hasMark = false ∧
          ∀ want st, (s.eval a'.expr want).run.run st =
              (.ok (s.concludeClosed want span e.2), st) ∧
            (s.concludeClosed want span e.2).result.hasMark = false := by
  have hcopies : s.CopyOf schema [] [] body a' := by
    have hreturns := s.givesCopies (body.depth + 1) [] [] body schema (Nat.lt_succ_self _)
    rw [← Body.substituteEnv_eq_placed] at hreturns
    exact hreturns st r st' h a' ha'
  obtain ⟨a, its, hcopies, rfl⟩ := hcopies
  refine ⟨a, its, hcopies, rfl, ?_⟩
  intro span range x hexpr hx
  obtain ⟨v, hv⟩ : ∃ v, its.lookup x = some v := by
    cases hv : its.lookup x with
    | none => exact absurd hx (Eval.lookup_eq_none_iff_not_mem_keys.1 hv)
    | some v => exact ⟨v, rfl⟩
  have hmem : (x, v) ∈ its := by
    rw [Fields.lookup_eq_get?] at hv
    exact Fields.mem_of_get? hv
  have helements : s.OfElements its := hcopies.ofElements nofun nofun
  obtain ⟨collection, e, he, rfl⟩ := helements x v hmem
  refine ⟨collection, e, he, hv, he.hasMark.2, ?_⟩
  intro want st
  refine ⟨?_, hasMark_concludeClosed he.hasMark.2⟩
  change (s.eval (a.expr.substituteEnv its) want).run.run st = _
  rw [eval_substituteEnv s (.refl its), hexpr]
  exact run_evalIn_iterator hv span range want st

/-- The scope in which every reference stands for a secret list of names. -/
def secretNames : Scope String Unit :=
  constantly (.sensitive (.list .string [.string "x"]))

def names : Expr := .traversal default "local" [.attr default "names"]

/-- A rule for each of the names. -/
def rulesOfNames : Body :=
  ⟨default, [], [dynamicRule names ⟨default, [attributeNamed "name" ruleValue], []⟩]⟩

/-- The attribute of the only rule. -/
def nameOfRule : Attribute :=
  (attributeNamed "name" ruleValue).2.substituteEnv
    [("rule", DynamicBlock.iteratorValue (.ofNat 0, .string "x"))]

theorem unmarked_of_expand_names :
    ∃ r, (secretNames.expand rulesOfNames rules).run.run () = (.ok r, ()) ∧
      r.result.Has nameOfRule ∧
      ∃ a its, secretNames.Copies rules [] [] rulesOfNames a its ∧
        nameOfRule = a.substituteEnv its ∧
        ∀ span range x, a.expr = .traversal span x [.attr range "value"] →
          x ∈ its.map Prod.fst →
          ∃ collection e, secretNames.Yields collection e ∧
            its.lookup x = some (DynamicBlock.iteratorValue e) ∧ e.2.hasMark = false ∧
            ∀ want st, (secretNames.eval nameOfRule.expr want).run.run st =
                (.ok (secretNames.concludeClosed want span e.2), st) ∧
              (secretNames.concludeClosed want span e.2).result.hasMark = false := by
  have hrun : (secretNames.expand rulesOfNames rules).run.run () =
      (.ok ⟨⟨default, [], [⟨default, default, "rule", [], [],
        ⟨default, [("name", nameOfRule)], []⟩⟩]⟩, []⟩, ()) := rfl
  have hhas : Body.Has ⟨default, [], [⟨default, default, "rule", [], [],
      ⟨default, [("name", nameOfRule)], []⟩⟩]⟩ nameOfRule :=
    .inner List.mem_cons_self (.own List.mem_cons_self)
  exact ⟨_, hrun, hhas, unmarked_of_expand hrun hhas⟩

/-- What the rule is for is secret, and its name is not. -/
theorem expand_reveals_names :
    ∃ r, (secretNames.expand rulesOfNames rules).run.run () = (.ok r, ()) ∧
      r.result.Has nameOfRule ∧
      (secretNames.eval names .dynamic).run.run () =
        (.ok ⟨.sensitive (.list .string [.string "x"]), []⟩, ()) ∧
      (secretNames.eval nameOfRule.expr .dynamic).run.run () =
        (.ok ⟨.string "x", []⟩, ()) :=
  ⟨_, rfl, .inner List.mem_cons_self (.own List.mem_cons_self), rfl, rfl⟩

end Scope

end StaticConfig
