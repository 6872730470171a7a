import StaticConfig.Proofs.Expansion.Lexical
import StaticConfig.Proofs.Fields
import StaticConfig.Proofs.Scoping.Substitution

/-!
What substitution makes of the parts of a body. Several values are put in place of their names one
after the other; the first that is put in place of a name stays. A dynamic block keeps its iterator
under this, and the parts it is taken apart into are those of the block before, with the values in
place: in the collection all of them, elsewhere those that the iterator does not hide.
-/
namespace StaticConfig

/-- Both environments have the same values for all names. -/
def Env.Alike (env env' : Env) : Prop :=
  ∀ name, env.lookup name = env'.lookup name

namespace Expr

/-- The expression with the values in place of their names. -/
def substituteEnv (e : Expr) (env : Env) : Expr :=
  env.foldl (fun e bound => e.substitute bound.1 bound.2) e

theorem substituteEnv_cons (e : Expr) (x : String) (v : Value) (env : Env) :
    e.substituteEnv ((x, v) :: env) = (e.substitute x v).substituteEnv env := rfl

theorem substituteEnv_append (e : Expr) (env env' : Env) :
    e.substituteEnv (env ++ env') = (e.substituteEnv env).substituteEnv env' :=
  List.foldl_append

theorem span_substituteEnv (e : Expr) (env : Env) : (e.substituteEnv env).span = e.span := by
  induction env generalizing e with
  | nil => rfl
  | cons bound env ih => exact (ih _).trans (span_substitute e)

theorem substituteAll_eq_map (x : String) (v : Value) (es : List Expr) :
    substituteAll x v es = es.map (substitute x v) := by
  induction es with
  | nil => rfl
  | cons e es ih => rw [substituteAll, ih, List.map_cons]

theorem substituteAll_substituteEnv (x : String) (v : Value) (es : List Expr) (env : Env) :
    substituteAll x v (es.map (substituteEnv · env)) =
      es.map (substituteEnv · (env ++ [(x, v)])) := by
  rw [substituteAll_eq_map, List.map_map]
  refine List.map_congr_left fun e _ => ?_
  exact (substituteEnv_append e env [(x, v)]).symm

theorem map_span_substituteEnv (es : List Expr) (env : Env) :
    (es.map (substituteEnv · env)).map span = es.map span := by
  rw [List.map_map]
  exact List.map_congr_left fun e _ => span_substituteEnv e env

/-- A single name that is not replaced stays one. -/
theorem keyword?_substituteEnv {env : Env} {e : Expr}
    (h : ∀ name ∈ env.map Prod.fst, e.keyword? ≠ some name) :
    (e.substituteEnv env).keyword? = e.keyword? := by
  induction env generalizing e with
  | nil => rfl
  | cons bound env ih =>
    obtain ⟨x, v⟩ := bound
    obtain ⟨hx, henv⟩ := List.forall_mem_cons.1 h
    have hkeep : (e.substitute x v).keyword? = e.keyword? := keyword?_substitute e hx
    have hrest : ∀ name ∈ env.map Prod.fst, (e.substitute x v).keyword? ≠ some name := by
      rw [hkeep]
      exact henv
    rw [substituteEnv_cons, ih hrest, hkeep]

/-- The items of a tuple. -/
def items? : Expr → Option (List Expr)
  | tuple _ items => some items
  | _ => none

theorem items?_substitute (x : String) (v : Value) (e : Expr) :
    (e.substitute x v).items? = e.items?.map (List.map (substitute x v)) := by
  cases e with
  | tuple span items =>
    exact congrArg some (substituteAll_eq_map x v items)
  | traversal span root steps =>
    rw [substitute]
    split
    · rfl
    · rfl
  | forEach span keyVar valueVar collection key value cond group =>
    rw [substitute]
    split
    · rfl
    · rfl
  | _ => rfl

theorem items?_substituteEnv (e : Expr) (env : Env) :
    (e.substituteEnv env).items? = e.items?.map (List.map (substituteEnv · env)) := by
  induction env generalizing e with
  | nil => cases h : e.items? <;> simp [substituteEnv, h]
  | cons bound env ih =>
    obtain ⟨x, v⟩ := bound
    rw [substituteEnv_cons, ih, items?_substitute]
    simp only [Option.map_map, Function.comp_def, List.map_map, substituteEnv_cons]

end Expr

namespace Attribute

def substituteEnv (a : Attribute) (env : Env) : Attribute :=
  { a with expr := a.expr.substituteEnv env }

end Attribute

namespace Block

/-- The block with the value in place of the name, as it is in a body. -/
def substitute (x : String) (v : Value) (b : Block) : Block :=
  { b with
    body :=
      if b.hides x then
        { b.body with attributes := b.body.attributes.map fun e =>
            if e.1 = "for_each" then (e.1, e.2.substitute x v) else e }
      else b.body.substitute x v }

def substituteEnv (b : Block) (env : Env) : Block :=
  env.foldl (fun b bound => b.substitute bound.1 bound.2) b

/-- The values that can be seen in the block, apart from its collection. -/
def visible (b : Block) (env : Env) : Env :=
  env.filter fun bound => !b.hides bound.1

end Block

namespace Body

def substituteEnv (body : Body) (env : Env) : Body :=
  env.foldl (fun body bound => body.substitute bound.1 bound.2) body

theorem substituteEnv_append (body : Body) (env env' : Env) :
    body.substituteEnv (env ++ env') = (body.substituteEnv env).substituteEnv env' :=
  List.foldl_append

theorem substituteBlocks_eq_map (x : String) (v : Value) (blocks : List Block) :
    substituteBlocks x v blocks = blocks.map (Block.substitute x v) := by
  induction blocks with
  | nil => rfl
  | cons b blocks ih =>
    cases b
    rw [substituteBlocks, ih]
    rfl

theorem substitute_eq (x : String) (v : Value) (body : Body) :
    body.substitute x v = ⟨body.span, Fields.mapValues (Attribute.substitute x v) body.attributes,
      body.blocks.map (Block.substitute x v)⟩ := by
  cases body
  rw [substitute, substituteBlocks_eq_map]
  rfl

/-- An expression of a body whose attributes are changed name by name. -/
theorem expr?_map {f : String → Attribute → Attribute} (g : String → Expr → Expr)
    (h : ∀ name a, (f name a).expr = g name a.expr) (body : Body) (span : Span)
    (blocks : List Block) (name : String) :
    (Body.mk span (body.attributes.map fun e => (e.1, f e.1 e.2)) blocks).expr? name =
      (body.expr? name).map (g name) := by
  rw [expr?, attribute?, Fields.get?_map, expr?, attribute?, Option.map_map, Option.map_map]
  congr 1
  funext a
  exact h name a

theorem substituteEnv_eq (body : Body) (env : Env) :
    body.substituteEnv env =
      ⟨body.span, Fields.mapValues (Attribute.substituteEnv · env) body.attributes,
        body.blocks.map (Block.substituteEnv · env)⟩ := by
  induction env generalizing body with
  | nil =>
    cases body
    simp only [substituteEnv, Attribute.substituteEnv, Expr.substituteEnv, Block.substituteEnv,
      Fields.mapValues, List.foldl_nil, List.map_id']
  | cons bound env ih =>
    change (body.substitute bound.1 bound.2).substituteEnv env = _
    rw [ih, substitute_eq]
    simp only [Fields.mapValues, List.map_map]
    rfl

end Body

namespace Block

variable {x : String} {v : Value}

theorem body_substitute (b : Block) : (b.substitute x v).body =
    ⟨b.body.span,
      b.body.attributes.map fun e =>
        (e.1, if b.hides x ∧ e.1 ≠ "for_each" then e.2 else e.2.substitute x v),
      if b.hides x then b.body.blocks else b.body.blocks.map (substitute x v)⟩ := by
  by_cases hx : b.hides x
  · simp only [substitute, if_pos hx]
    congr 1
    refine List.map_congr_left fun e _ => ?_
    by_cases hname : e.1 = "for_each"
    · rw [if_pos hname, if_neg fun h => h.2 hname]
    · rw [if_neg hname, if_pos ⟨hx, hname⟩]
  · simp only [substitute, if_neg hx, Body.substitute_eq, Fields.mapValues]
    congr 1
    refine List.map_congr_left fun e _ => ?_
    rw [if_neg fun h => hx h.1]

theorem expr?_substitute (b : Block) (name : String) :
    (b.substitute x v).body.expr? name = (b.body.expr? name).map fun e =>
      if b.hides x ∧ name ≠ "for_each" then e else e.substitute x v := by
  let part (name : String) (e : Expr) : Expr :=
    if b.hides x ∧ name ≠ "for_each" then e else e.substitute x v
  have hpart (name : String) (a : Attribute) :
      (if b.hides x ∧ name ≠ "for_each" then a else a.substitute x v).expr = part name a.expr :=
    apply_ite Attribute.expr _ _ _
  rw [body_substitute]
  exact Body.expr?_map part hpart b.body _ _ name

/-- Substitution leaves the iterator of a dynamic block as it is. -/
theorem hides_substitute (b : Block) (name : String) :
    (b.substitute x v).hides name = b.hides name := by
  have hexpr := expr?_substitute (x := x) (v := v) b "iterator"
  unfold hides
  rw [hexpr]
  change (b.type == "dynamic" && _) = _
  by_cases htype : b.type = "dynamic"
  · congr 1
    cases hi : b.body.expr? "iterator" with
    | none => rfl
    | some e =>
      change ((if b.hides x ∧ "iterator" ≠ "for_each" then e else e.substitute x v).keyword? ==
        some name) = (e.keyword? == some name)
      by_cases hx : b.hides x
      · rw [if_pos ⟨hx, by decide⟩]
      · have hne : e.keyword? ≠ some x := by
          intro heq
          apply hx
          simp [hides, htype, hi, heq]
        rw [if_neg (fun h => hx h.1), Expr.keyword?_substitute e hne]
  · have hfalse : (b.type == "dynamic") = false := beq_eq_false_iff_ne.2 htype
    rw [hfalse, Bool.false_and, Bool.false_and]

theorem visible_congr {b b' : Block} (h : ∀ name, b.hides name = b'.hides name) (env : Env) :
    b.visible env = b'.visible env := by
  simp only [visible, h]

theorem visible_cons_of_hides {b : Block} (hx : b.hides x) (env : Env) :
    b.visible ((x, v) :: env) = b.visible env := by
  simp [visible, hx]

theorem visible_cons_of_not_hides {b : Block} (hx : ¬b.hides x) (env : Env) :
    b.visible ((x, v) :: env) = (x, v) :: b.visible env := by
  simp [visible, hx]

theorem substituteEnv_attribute (b : Block) (env : Env) (name : String) (a : Attribute) :
    (if b.hides x ∧ name ≠ "for_each" then a else a.substitute x v).substituteEnv
        (if name = "for_each" then env else b.visible env) =
      a.substituteEnv
        (if name = "for_each" then (x, v) :: env else b.visible ((x, v) :: env)) := by
  by_cases hname : name = "for_each"
  · rw [if_neg fun h => h.2 hname, if_pos hname, if_pos hname]
    rfl
  · rw [if_neg hname, if_neg hname]
    by_cases hx : b.hides x
    · rw [if_pos ⟨hx, hname⟩, visible_cons_of_hides hx]
    · rw [if_neg fun h => hx h.1, visible_cons_of_not_hides hx]
      rfl

/-- A block after several substitutions. The collection of a dynamic block has all values in place,
the rest of it only those that its iterator does not hide. -/
theorem substituteEnv_eq (b : Block) (env : Env) :
    b.substituteEnv env = { b with
      body := ⟨b.body.span,
        b.body.attributes.map fun e =>
          (e.1, e.2.substituteEnv (if e.1 = "for_each" then env else b.visible env)),
        b.body.blocks.map (substituteEnv · (b.visible env))⟩ } := by
  induction env generalizing b with
  | nil =>
    obtain ⟨span, definition, type, labels, labelSpans, body⟩ := b
    cases body
    simp only [substituteEnv, Attribute.substituteEnv, Expr.substituteEnv, visible, ite_self,
      List.filter_nil, List.foldl_nil, List.map_id']
  | cons bound env ih =>
    obtain ⟨x, v⟩ := bound
    have hblocks : (if b.hides x then b.body.blocks else b.body.blocks.map (substitute x v)).map
        (substituteEnv · (b.visible env)) =
          b.body.blocks.map (substituteEnv · (b.visible ((x, v) :: env))) := by
      by_cases hx : b.hides x
      · rw [if_pos hx, visible_cons_of_hides hx]
      · rw [if_neg hx, visible_cons_of_not_hides hx, List.map_map]
        rfl
    change (b.substitute x v).substituteEnv env = _
    rw [ih, visible_congr (hides_substitute b) env, body_substitute]
    simp only [List.map_map, Function.comp_def, substituteEnv_attribute, hblocks]
    rfl

theorem expr?_substituteEnv (b : Block) (env : Env) (name : String) :
    (b.substituteEnv env).body.expr? name = (b.body.expr? name).map
      (Expr.substituteEnv · (if name = "for_each" then env else b.visible env)) := by
  let part (name : String) (e : Expr) : Expr :=
    e.substituteEnv (if name = "for_each" then env else b.visible env)
  have hpart (name : String) (a : Attribute) :
      (a.substituteEnv (if name = "for_each" then env else b.visible env)).expr =
        part name a.expr := rfl
  rw [substituteEnv_eq]
  exact Body.expr?_map part hpart b.body _ _ name

theorem block?_substituteEnv (b : Block) (env : Env) (type : String) :
    (b.substituteEnv env).body.block? type =
      (b.body.block? type).map (substituteEnv · (b.visible env)) := by
  rw [substituteEnv_eq, Body.block?, Body.block?, List.find?_map]
  have hsame : (fun c : Block => c.type == type) ∘ (substituteEnv · (b.visible env)) =
      fun c => c.type == type := by
    funext c
    simp only [Function.comp_apply]
    rw [substituteEnv_eq]
  rw [hsame]

theorem body_substituteEnv_of_ne {b : Block} (h : b.type ≠ "dynamic") (env : Env) :
    (b.substituteEnv env).body = b.body.substituteEnv env := by
  have hvisible : b.visible env = env := by
    have hnot (name : String) : b.hides name = false := by
      unfold hides
      rw [beq_eq_false_iff_ne.2 h, Bool.false_and]
    simp [visible, hnot]
  rw [substituteEnv_eq, Body.substituteEnv_eq, hvisible]
  simp only [ite_self]
  rfl

end Block

namespace DynamicBlock

variable {b : Block} {type : String} {d : DynamicBlock}

/-- The parts with values in place: the outer ones in the collection, the inner ones elsewhere. -/
def substituteEnv (d : DynamicBlock) (outer inner : Env) : DynamicBlock :=
  ⟨d.collection.substituteEnv outer, d.iterator, d.labels.map (Expr.substituteEnv · inner),
    d.content.substituteEnv inner⟩

theorem withLabels_eq (collection : Expr) (iterator : String) (content : Body) :
    ofBlock.withLabels b collection iterator content =
      match (b.body.expr? "labels").map fun e => (e.items?, e.span) with
      | none => .ok ⟨collection, iterator, [], content⟩
      | some (some items, _) => .ok ⟨collection, iterator, items, content⟩
      | some (none, span) =>
        problem "Invalid dynamic block labels"
          "The labels argument must be a tuple of label expressions." span := by
  unfold ofBlock.withLabels
  cases b.body.expr? "labels" with
  | none => rfl
  | some e => cases e <;> rfl

theorem withLabels_substituteEnv (env : Env) (collection : Expr) (iterator : String)
    (content : Body) :
    ofBlock.withLabels (b.substituteEnv env) (collection.substituteEnv env) iterator
        (content.substituteEnv (b.visible env)) =
      (ofBlock.withLabels b collection iterator content).map
        (substituteEnv · env (b.visible env)) := by
  rw [withLabels_eq, withLabels_eq, Block.expr?_substituteEnv, if_neg (by decide), Option.map_map]
  cases b.body.expr? "labels" with
  | none => rfl
  | some e =>
    simp only [Option.map_some, Function.comp_apply, Expr.items?_substituteEnv,
      Expr.span_substituteEnv]
    cases e.items? with
    | none => rfl
    | some items => rfl

/-- The names that the iterator of a dynamic block does not hide are not its own. -/
theorem keyword?_substituteEnv_iterator (hb : b.type = "dynamic") {e : Expr}
    (he : b.body.expr? "iterator" = some e) (env : Env) :
    (e.substituteEnv (b.visible env)).keyword? = e.keyword? := by
  refine Expr.keyword?_substituteEnv fun name hname heq => ?_
  obtain ⟨bound, hbound, rfl⟩ := List.mem_map.1 hname
  have hnot := (List.mem_filter.1 hbound).2
  simp [Block.hides, hb, he, heq] at hnot

/-- Substitution commutes with taking a dynamic block apart. -/
theorem ofBlock_substituteEnv (hb : b.type = "dynamic") (env : Env) :
    ofBlock (b.substituteEnv env) type =
      (ofBlock b type).map (substituteEnv · env (b.visible env)) := by
  have hdefinition : (b.substituteEnv env).definition = b.definition := by
    rw [Block.substituteEnv_eq]
  unfold ofBlock
  rw [hdefinition, Block.expr?_substituteEnv, if_pos rfl]
  cases b.body.expr? "for_each" with
  | none => rfl
  | some collection =>
    simp only [Option.map_some]
    rw [Block.block?_substituteEnv]
    cases hc : b.body.block? "content" with
    | none => rfl
    | some content =>
      have hcontent : content.type ≠ "dynamic" := by
        have htype := List.find?_some hc
        rw [eq_of_beq htype]
        decide
      simp only [Option.map_some]
      rw [Block.expr?_substituteEnv, if_neg (by decide), Block.body_substituteEnv_of_ne hcontent]
      cases hi : b.body.expr? "iterator" with
      | none => exact withLabels_substituteEnv env collection type content.body
      | some e =>
        simp only [Option.map_some, Expr.span_substituteEnv,
          keyword?_substituteEnv_iterator hb hi]
        cases e.keyword? with
        | none => rfl
        | some name => exact withLabels_substituteEnv env collection name content.body

theorem of_dynamicType? (h : Scope.dynamicType? b = some type) :
    b.type = "dynamic" ∧ b.labels = [type] := by
  unfold Scope.dynamicType? at h
  split at h
  · rename_i htype
    split at h
    · rename_i hlabels
      cases h
      exact ⟨htype, hlabels⟩
    · cases h
  · cases h

/-- The iterator is the name that a dynamic block hides. -/
theorem hides_eq (hb : Scope.dynamicType? b = some type) (h : ofBlock b type = .ok d)
    (name : String) : b.hides name = (d.iterator == name) := by
  obtain ⟨htype, hlabels⟩ := of_dynamicType? hb
  have hiterator := (of_ofBlock h).2
  unfold iteratorName? at hiterator
  unfold Block.hides
  rw [htype, hlabels, beq_self_eq_true, Bool.true_and]
  cases hi : b.body.expr? "iterator" with
  | none =>
    rw [hi] at hiterator
    cases hiterator
    exact Option.some_beq_some
  | some e =>
    rw [hi] at hiterator
    change (e.keyword? == some name) = _
    have hkeyword : e.keyword? = some d.iterator := hiterator
    rw [hkeyword]
    exact Option.some_beq_some

end DynamicBlock

end StaticConfig
