import StaticConfig.Proofs.Reading.Positions

/-!
Trees of ranges. Below the range of a part of the syntax tree stand those of its own parts, in the
order in which they start. Such a tree is nested if each range covers the ranges below it, and these
do not overlap.
-/
namespace StaticConfig

open StaticConfig.Lexer (Boundary)

/-- A range, with what it consists of. -/
inductive SpanTree where
  | node (span : Span) (inner : List SpanTree)

namespace SpanTree

def span : SpanTree → Span
  | node span _ => span

def inner : SpanTree → List SpanTree
  | node _ inner => inner

def leaf (span : Span) : SpanTree := node span []

mutual

/-- The tree and all trees below. -/
def subtrees : SpanTree → List SpanTree
  | node span inner => node span inner :: subtreesOfAll inner

def subtreesOfAll : List SpanTree → List SpanTree
  | [] => []
  | t :: ts => t.subtrees ++ subtreesOfAll ts

end

/-- All ranges in the tree. -/
def spans (t : SpanTree) : List Span := t.subtrees.map span

/-- The trees in the order in which they start. -/
def sorted (ts : List SpanTree) : List SpanTree :=
  ts.mergeSort fun a b => decide (a.span.start ≤ b.span.start)

end SpanTree

def Step.tree (step : Step) : SpanTree := .leaf step.span

namespace Expr

mutual

/-- The ranges of the expression, of its steps and of its parts. -/
def tree : Expr → SpanTree
  | literal span _ => .leaf span
  | template span parts => .node span (treesOfTemplate parts)
  | traversal span _ steps => .node span (steps.map Step.tree)
  | relative span source steps => .node span (source.tree :: steps.map Step.tree)
  | index span collection key => .node span [collection.tree, key.tree]
  | splat span source each => .node span (source.tree :: each.map Step.tree)
  | tuple span items => .node span (treesOfAll items)
  | object span items => .node span (treesOfItems items)
  | call span _ args _ => .node span (treesOfAll args)
  | unary span _ operand => .node span [operand.tree]
  | binary span _ lhs rhs => .node span [lhs.tree, rhs.tree]
  | conditional span cond yes no => .node span [cond.tree, yes.tree, no.tree]
  | forEach span _ _ collection key value cond _ =>
    .node span (collection.tree :: treesOfOption key ++ value.tree :: treesOfOption cond)
  | parens span inner => .node span [inner.tree]

def treesOfAll : List Expr → List SpanTree
  | [] => []
  | e :: es => e.tree :: treesOfAll es

def treesOfOption : Option Expr → List SpanTree
  | none => []
  | some e => [e.tree]

def treesOfTemplate : List TemplatePart → List SpanTree
  | [] => []
  | .text _ :: parts => treesOfTemplate parts
  | .interp e :: parts => e.tree :: treesOfTemplate parts

def treeOfKey : ObjectKey → SpanTree
  | .name span _ => .leaf span
  | .expr key => key.tree

def treesOfItems : List (ObjectKey × Expr) → List SpanTree
  | [] => []
  | (key, value) :: items => treeOfKey key :: value.tree :: treesOfItems items

end

end Expr

/-- The ranges of the attribute, of its name and of its expression. -/
def Attribute.tree (a : Attribute) : SpanTree := .node a.span [.leaf a.nameSpan, a.expr.tree]

mutual

/-- The ranges of the body and of what it defines. -/
def Body.tree : Body → SpanTree
  | ⟨span, attributes, blocks⟩ =>
    .node span (SpanTree.sorted (attributes.map (fun e => e.2.tree) ++ Block.treesOfAll blocks))

/-- The ranges of the block, of its type with its labels, and of its body. -/
def Block.tree : Block → SpanTree
  | ⟨span, definition, _, _, labelSpans, body⟩ =>
    .node span [.node definition (labelSpans.map .leaf), body.tree]

def Block.treesOfAll : List Block → List SpanTree
  | [] => []
  | b :: bs => b.tree :: Block.treesOfAll bs

end

/-- The range goes from a place between characters of the source to a later one. -/
structure Span.Lies (source : Source) (span : Span) : Prop where
  source_eq : span.source = source
  start_le_stop : span.start ≤ span.stop
  start : Boundary 0 source.text.toList span.start
  stop : Boundary 0 source.text.toList span.stop

theorem Source.le_size_of_boundary {source : Source} {place : Nat}
    (h : Boundary 0 source.text.toList place) : place ≤ source.size := by
  obtain ⟨before, ⟨rest, hsplit⟩, hplace⟩ := h
  rw [Source.size_eq, ← hsplit, byteLength_append, hplace]
  omega

theorem Source.boundary_of_segment {source : Source} {start stop : Nat} {cs : List Char}
    (h : source.Segment start stop cs) : Boundary 0 source.text.toList start ∧
      Boundary 0 source.text.toList stop := by
  obtain ⟨front, back, hsplit, rfl, rfl⟩ := h
  rw [hsplit]
  exact ⟨⟨front, ⟨cs ++ back, (List.append_assoc ..).symm⟩, (Nat.zero_add _).symm⟩,
    ⟨front ++ cs, ⟨back, rfl⟩, (Nat.zero_add _).symm⟩⟩

theorem Span.Lies.through {source : Source} {a b : Span} (ha : a.Lies source)
    (hb : b.Lies source) : (a.through b).Lies source := by
  refine ⟨ha.source_eq, Nat.le_trans ha.start_le_stop (Nat.le_max_right _ _), ha.start, ?_⟩
  rcases Nat.le_total b.stop a.stop with hle | hle
  · rw [Span.through, Nat.max_eq_right hle]
    exact ha.stop
  · rw [Span.through, Nat.max_eq_left hle]
    exact hb.stop

/-- The body of a file has the range of the whole source. -/
theorem Source.lies_whole (source : Source) :
    (⟨source, 1, 1, 0, source.size⟩ : Span).Lies source :=
  ⟨rfl, Nat.zero_le _, ⟨[], List.nil_prefix, rfl⟩,
    ⟨source.text.toList, List.prefix_rfl, by rw [Source.size_eq, Nat.zero_add]⟩⟩

namespace SpanTree

/-- The range lies in the source and covers those right below, none of which overlaps another. -/
structure Covers (source : Source) (t : SpanTree) : Prop where
  lies : t.span.Lies source
  covers : ∀ u ∈ t.inner, t.span.start ≤ u.span.start ∧ u.span.stop ≤ t.span.stop
  disjoint : t.inner.Pairwise fun u v => u.span.stop ≤ v.span.start

/-- Every range in the tree lies in the source and covers those below. -/
def Nested (source : Source) (t : SpanTree) : Prop := ∀ u ∈ t.subtrees, u.Covers source

/-- The trees stand one after the other between two places, and each of them is nested. -/
inductive InOrder (source : Source) : Nat → List SpanTree → Nat → Prop
  | nil {place stop : Nat} : place ≤ stop → InOrder source place [] stop
  | cons {place stop : Nat} {t : SpanTree} {ts : List SpanTree} : place ≤ t.span.start →
    t.Nested source → InOrder source t.span.stop ts stop → InOrder source place (t :: ts) stop

variable {source : Source} {span : Span} {t : SpanTree} {ts us inner : List SpanTree}
  {place middle stop : Nat}

theorem mem_subtrees_self (t : SpanTree) : t ∈ t.subtrees := by
  cases t
  exact List.mem_cons_self

theorem forall_subtreesOfAll {P : SpanTree → Prop} :
    (∀ u ∈ subtreesOfAll ts, P u) ↔ ∀ t ∈ ts, ∀ u ∈ t.subtrees, P u := by
  induction ts with
  | nil => simp [subtreesOfAll]
  | cons t ts ih => rw [subtreesOfAll, List.forall_mem_append, ih, List.forall_mem_cons]

theorem Nested.self (h : t.Nested source) : t.Covers source := h t (mem_subtrees_self t)

theorem Nested.lies (h : t.Nested source) : t.span.Lies source := h.self.lies

theorem nested_node_iff : (node span inner).Nested source ↔
    (node span inner).Covers source ∧ ∀ t ∈ inner, t.Nested source := by
  rw [Nested, subtrees, List.forall_mem_cons, forall_subtreesOfAll]
  rfl

namespace InOrder

theorem le (h : InOrder source place ts stop) : place ≤ stop := by
  induction h with
  | nil hle => exact hle
  | cons hplace ht _ ih =>
    exact Nat.le_trans hplace (Nat.le_trans ht.lies.start_le_stop ih)

theorem of_le {place' : Nat} (h : InOrder source place ts stop) (hle : place' ≤ place) :
    InOrder source place' ts stop := by
  cases h with
  | nil hstop => exact .nil (Nat.le_trans hle hstop)
  | cons hplace ht hts => exact .cons (Nat.le_trans hle hplace) ht hts

theorem append (h : InOrder source place ts middle) (hus : InOrder source middle us stop) :
    InOrder source place (ts ++ us) stop := by
  induction h with
  | nil hle => exact hus.of_le hle
  | cons hplace ht _ ih => exact .cons hplace ht (ih hus)

theorem to_le {stop' : Nat} (h : InOrder source place ts stop) (hle : stop ≤ stop') :
    InOrder source place ts stop' := by
  rw [← List.append_nil ts]
  exact h.append (.nil hle)

theorem single (hplace : place ≤ t.span.start) (ht : t.Nested source) (hstop : t.span.stop ≤ stop) :
    InOrder source place [t] stop :=
  .cons hplace ht (.nil hstop)

theorem nested (h : InOrder source place ts stop) : ∀ t ∈ ts, t.Nested source := by
  induction h with
  | nil => exact List.forall_mem_nil _
  | cons _ ht _ ih => exact List.forall_mem_cons.2 ⟨ht, ih⟩

theorem covers (h : InOrder source place ts stop) :
    ∀ t ∈ ts, place ≤ t.span.start ∧ t.span.stop ≤ stop := by
  induction h with
  | nil => exact List.forall_mem_nil _
  | cons hplace ht hts ih =>
    refine List.forall_mem_cons.2 ⟨⟨hplace, hts.le⟩, fun u hu => ⟨?_, (ih u hu).2⟩⟩
    exact Nat.le_trans hplace (Nat.le_trans ht.lies.start_le_stop (ih u hu).1)

theorem pairwise (h : InOrder source place ts stop) :
    ts.Pairwise fun u v => u.span.stop ≤ v.span.start := by
  induction h with
  | nil => exact .nil
  | cons _ _ hts ih => exact .cons (fun u hu => (hts.covers u hu).1) ih

end InOrder

theorem inOrder_of_pairwise (hplace : place ≤ stop) (hts : ∀ t ∈ ts, t.Nested source)
    (hcovers : ∀ t ∈ ts, place ≤ t.span.start ∧ t.span.stop ≤ stop)
    (hdisjoint : ts.Pairwise fun u v => u.span.stop ≤ v.span.start) :
    InOrder source place ts stop := by
  induction ts generalizing place with
  | nil => exact .nil hplace
  | cons t ts ih =>
    obtain ⟨ht, hts⟩ := List.forall_mem_cons.1 hts
    obtain ⟨hfirst, hrest⟩ := List.forall_mem_cons.1 hcovers
    obtain ⟨hnext, hdisjoint⟩ := List.pairwise_cons.1 hdisjoint
    exact .cons hfirst.1 ht (ih hfirst.2 hts (fun u hu => ⟨hnext u hu, (hrest u hu).2⟩) hdisjoint)

/-- A range is above trees that stand one after the other in it. -/
theorem nested_node (hspan : span.Lies source) (h : InOrder source span.start inner span.stop) :
    (node span inner).Nested source :=
  nested_node_iff.2 ⟨⟨hspan, h.covers, h.pairwise⟩, h.nested⟩

theorem Nested.inOrder (h : (node span inner).Nested source) :
    InOrder source span.start inner span.stop := by
  obtain ⟨⟨hspan, hcovers, hdisjoint⟩, hinner⟩ := nested_node_iff.1 h
  exact inOrder_of_pairwise hspan.start_le_stop hinner hcovers hdisjoint

theorem nested_leaf (hspan : span.Lies source) : (leaf span).Nested source :=
  nested_node hspan (.nil hspan.start_le_stop)

/-- A range from the first to the last one of those below. -/
theorem nested_through {first last : Span} (hfirst : first.Lies source) (hlast : last.Lies source)
    (h : InOrder source first.start inner last.stop) :
    (node (first.through last) inner).Nested source :=
  nested_node (hfirst.through hlast) (h.to_le (Nat.le_max_left _ _))

/-- Trees that start at different places have only one order. -/
theorem sorted_eq (h : InOrder source place ts stop)
    (hpositive : ∀ t ∈ ts, t.span.start < t.span.stop) (hperm : us.Perm ts) :
    sorted us = ts := by
  have hstarts : ts.Pairwise fun t u => t.span.start < u.span.start :=
    h.pairwise.imp_of_mem fun ht _ hle => Nat.lt_of_lt_of_le (hpositive _ ht) hle
  have hdistinct : (ts.map fun t => t.span.start).Nodup :=
    List.pairwise_map.2 (hstarts.imp Nat.ne_of_lt)
  have hsorted : (sorted us).Pairwise fun t u => t.span.start ≤ u.span.start := by
    refine (List.pairwise_mergeSort ?_ ?_ us).imp of_decide_eq_true
    · intro a b c hab hbc
      exact decide_eq_true (Nat.le_trans (of_decide_eq_true hab) (of_decide_eq_true hbc))
    · intro a b
      simpa using Nat.le_total a.span.start b.span.start
  have hmembers : (sorted us).Perm ts := (List.mergeSort_perm us _).trans hperm
  refine List.Perm.eq_of_pairwise (fun t u ht hu htu hut => ?_) hsorted
    (hstarts.imp Nat.le_of_lt) hmembers
  exact List.inj_on_of_nodup_map hdistinct (hmembers.mem_iff.1 ht) hu (Nat.le_antisymm htu hut)

end SpanTree

theorem Expr.span_tree (e : Expr) : e.tree.span = e.span := by
  cases e <;> rfl

theorem Body.span_tree (body : Body) : body.tree.span = body.span := by
  cases body
  rfl

theorem Block.span_tree (block : Block) : block.tree.span = block.span := by
  cases block
  rfl

/-! The trees leave out no range. -/

namespace SpanTree

theorem mem_spans_self (t : SpanTree) : t.span ∈ t.spans :=
  List.mem_map_of_mem (mem_subtrees_self t)

theorem spans_subset {span : Span} {inner : List SpanTree} {t : SpanTree} (h : t ∈ inner) :
    t.spans ⊆ (node span inner).spans := by
  have hall : ∀ u ∈ t.subtrees, u ∈ subtreesOfAll inner :=
    forall_subtreesOfAll.1 (fun _ hu => hu) t h
  refine List.map_subset _ fun u hu => ?_
  rw [subtrees]
  exact List.mem_cons_of_mem _ (hall u hu)

theorem mem_spans {span : Span} {inner : List SpanTree} {t : SpanTree} (h : t ∈ inner) :
    t.span ∈ (node span inner).spans :=
  spans_subset h t.mem_spans_self

end SpanTree

namespace Expr

/-- The tree of the part is found among those of the list. -/
def FoundIn (inner : List SpanTree) (p : Expr) : Prop := ∃ t ∈ inner, p.tree.spans ⊆ t.spans

theorem FoundIn.mono {inner inner' : List SpanTree} {p : Expr} (h : FoundIn inner p)
    (hsub : inner ⊆ inner') : FoundIn inner' p := by
  obtain ⟨t, ht, hspans⟩ := h
  exact ⟨t, hsub ht, hspans⟩

/-- An expression adds its own tree to those of the parts inside. -/
theorem parts_subset_tree {e : Expr} {span : Span} {inner : List SpanTree} {inside : List Expr}
    (htree : e.tree = .node span inner) (hparts : e.parts = e :: inside)
    (h : ∀ p ∈ inside, FoundIn inner p) : ∀ p ∈ e.parts, p.tree.spans ⊆ e.tree.spans := by
  rw [hparts]
  refine List.forall_mem_cons.2 ⟨List.Subset.refl _, fun p hp => ?_⟩
  obtain ⟨t, ht, hspans⟩ := h p hp
  rw [htree]
  exact List.Subset.trans hspans (SpanTree.spans_subset ht)

theorem foundIn_of_mem {e : Expr} {inner : List SpanTree} (hmem : e.tree ∈ inner)
    (h : ∀ p ∈ e.parts, p.tree.spans ⊆ e.tree.spans) : ∀ p ∈ e.parts, FoundIn inner p :=
  fun p hp => ⟨e.tree, hmem, h p hp⟩

theorem foundIn_head {e : Expr} {inner : List SpanTree}
    (h : ∀ p ∈ e.parts, p.tree.spans ⊆ e.tree.spans) : ∀ p ∈ e.parts, FoundIn (e.tree :: inner) p :=
  foundIn_of_mem List.mem_cons_self h

mutual

theorem spans_parts : ∀ e : Expr, ∀ p ∈ e.parts, p.tree.spans ⊆ e.tree.spans
  | literal _ _ => parts_subset_tree rfl rfl (List.forall_mem_nil _)
  | template _ parts => parts_subset_tree rfl rfl (foundIn_template parts)
  | traversal _ _ _ => parts_subset_tree rfl rfl (List.forall_mem_nil _)
  | relative _ source _ => parts_subset_tree rfl rfl (foundIn_head (spans_parts source))
  | index _ collection key => by
    refine parts_subset_tree rfl rfl (List.forall_mem_append.2 ⟨?_, ?_⟩)
    · exact foundIn_of_mem (by simp) (spans_parts collection)
    · exact foundIn_of_mem (by simp) (spans_parts key)
  | splat _ source _ => parts_subset_tree rfl rfl (foundIn_head (spans_parts source))
  | tuple _ items => parts_subset_tree rfl rfl (foundIn_all items)
  | object _ items => parts_subset_tree rfl rfl (foundIn_items items)
  | call _ _ args _ => parts_subset_tree rfl rfl (foundIn_all args)
  | unary _ _ operand => parts_subset_tree rfl rfl (foundIn_head (spans_parts operand))
  | binary _ _ lhs rhs => by
    refine parts_subset_tree rfl rfl (List.forall_mem_append.2 ⟨?_, ?_⟩)
    · exact foundIn_of_mem (by simp) (spans_parts lhs)
    · exact foundIn_of_mem (by simp) (spans_parts rhs)
  | conditional _ cond yes no => by
    refine parts_subset_tree rfl rfl (List.forall_mem_append.2
      ⟨List.forall_mem_append.2 ⟨?_, ?_⟩, ?_⟩)
    · exact foundIn_of_mem (by simp) (spans_parts cond)
    · exact foundIn_of_mem (by simp) (spans_parts yes)
    · exact foundIn_of_mem (by simp) (spans_parts no)
  | forEach _ _ _ collection key value cond _ => by
    refine parts_subset_tree rfl rfl ?_
    simp only [List.forall_mem_append]
    refine ⟨⟨⟨?_, fun p hp => (foundIn_option key p hp).mono ?_⟩, ?_⟩,
      fun p hp => (foundIn_option cond p hp).mono ?_⟩
    · exact foundIn_of_mem (by simp) (spans_parts collection)
    · exact List.subset_append_of_subset_left _ (List.subset_cons_self _ _)
    · exact foundIn_of_mem (by simp) (spans_parts value)
    · exact List.subset_append_of_subset_right _ (List.subset_cons_self _ _)
  | parens _ inner => parts_subset_tree rfl rfl (foundIn_head (spans_parts inner))

theorem foundIn_all : ∀ es : List Expr, ∀ p ∈ partsOfAll es, FoundIn (treesOfAll es) p
  | [] => List.forall_mem_nil _
  | e :: es => List.forall_mem_append.2 ⟨foundIn_head (spans_parts e),
    fun p hp => (foundIn_all es p hp).mono (List.subset_cons_self _ _)⟩

theorem foundIn_option : ∀ e : Option Expr, ∀ p ∈ partsOfOption e, FoundIn (treesOfOption e) p
  | none => List.forall_mem_nil _
  | some e => foundIn_head (spans_parts e)

theorem foundIn_template : ∀ parts : List TemplatePart, ∀ p ∈ partsOfTemplate parts,
    FoundIn (treesOfTemplate parts) p
  | [] => List.forall_mem_nil _
  | .text _ :: parts => foundIn_template parts
  | .interp e :: parts => List.forall_mem_append.2 ⟨foundIn_head (spans_parts e),
    fun p hp => (foundIn_template parts p hp).mono (List.subset_cons_self _ _)⟩

theorem foundIn_items : ∀ items : List (ObjectKey × Expr), ∀ p ∈ partsOfItems items,
    FoundIn (treesOfItems items) p
  | [] => List.forall_mem_nil _
  | (.name _ _, value) :: items => by
    refine List.forall_mem_append.2 ⟨?_, fun p hp => ?_⟩
    · exact foundIn_of_mem (by simp [treesOfItems]) (spans_parts value)
    · exact (foundIn_items items p hp).mono (by simp [treesOfItems])
  | (.expr key, value) :: items => by
    refine List.forall_mem_append.2 ⟨List.forall_mem_append.2 ⟨?_, ?_⟩, fun p hp => ?_⟩
    · exact foundIn_of_mem (by simp [treesOfItems, treeOfKey]) (spans_parts key)
    · exact foundIn_of_mem (by simp [treesOfItems]) (spans_parts value)
    · exact (foundIn_items items p hp).mono (by simp [treesOfItems])

end

theorem span_mem_treesOfItems {items : List (ObjectKey × Expr)} {item : ObjectKey × Expr}
    {span : Span} {name : String} (h : item ∈ items) (hkey : item.1 = .name span name) :
    SpanTree.leaf span ∈ treesOfItems items := by
  induction items with
  | nil => cases h
  | cons first items ih =>
    obtain ⟨key, value⟩ := first
    rw [treesOfItems]
    rcases List.mem_cons.1 h with rfl | h
    · cases hkey
      exact List.mem_cons_self
    · exact List.mem_cons_of_mem _ (List.mem_cons_of_mem _ (ih h))

/-- The tree of an expression has its own range, those of its steps and those of its names. -/
theorem own_mem_spans (e : Expr) :
    ∀ span ∈ e.span :: e.steps.map Step.span ++ e.nameSpans, span ∈ e.tree.spans := by
  have hstep {span : Span} {inner : List SpanTree} {steps : List Step} {step : Step}
      (h : step ∈ steps) (hsub : steps.map Step.tree ⊆ inner) :
      step.span ∈ (SpanTree.node span inner).spans :=
    SpanTree.mem_spans (t := step.tree) (hsub (List.mem_map_of_mem h))
  refine List.forall_mem_append.2 ⟨List.forall_mem_cons.2 ⟨?_, List.forall_mem_map.2 ?_⟩, ?_⟩
  · rw [← e.span_tree]
    exact e.tree.mem_spans_self
  · intro step h
    cases e with
    | traversal => exact hstep h (List.Subset.refl _)
    | relative | splat => exact hstep h (List.subset_cons_self _ _)
    | _ => cases h
  · intro span h
    cases e with
    | object _ items =>
      obtain ⟨item, hitem, hname⟩ := List.mem_filterMap.1 h
      split at hname
      · next _ name hkey =>
        cases hname
        exact SpanTree.mem_spans (span_mem_treesOfItems hitem hkey)
      · cases hname
    | _ => cases h

theorem spans_subset_tree (e : Expr) : e.spans ⊆ e.tree.spans := by
  refine List.forall_mem_flatMap.2 fun p hp span hspan => ?_
  exact spans_parts e p hp (own_mem_spans p span hspan)

end Expr

theorem Attribute.spans_subset_tree (a : Attribute) : a.spans ⊆ a.tree.spans := by
  refine List.forall_mem_cons.2 ⟨a.tree.mem_spans_self, List.forall_mem_cons.2 ⟨?_, ?_⟩⟩
  · exact SpanTree.mem_spans (t := .leaf a.nameSpan) List.mem_cons_self
  · intro span hspan
    exact SpanTree.spans_subset (by simp) (a.expr.spans_subset_tree hspan)

mutual

theorem Body.spans_subset_tree : ∀ body : Body, body.spans ⊆ body.tree.spans
  | ⟨_, attributes, blocks⟩ => by
    refine List.forall_mem_append.2 ⟨List.forall_mem_flatMap.2 fun e he span hspan => ?_,
      fun span hspan => ?_⟩
    · refine SpanTree.spans_subset (List.mem_mergeSort.2 (List.mem_append_left _ ?_))
        (e.2.spans_subset_tree hspan)
      exact List.mem_map_of_mem he
    · obtain ⟨t, ht, hspan⟩ := Block.exists_tree_of_mem blocks span hspan
      exact SpanTree.spans_subset (List.mem_mergeSort.2 (List.mem_append_right _ ht)) hspan

theorem Block.spans_subset_tree : ∀ block : Block, block.spans ⊆ block.tree.spans
  | ⟨_, definition, _, _, labelSpans, body⟩ => by
    have hlabels {span : Span} (h : span ∈ labelSpans) :
        span ∈ (SpanTree.node definition (labelSpans.map .leaf)).spans :=
      SpanTree.mem_spans (t := .leaf span) (List.mem_map_of_mem h)
    refine List.forall_mem_append.2 ⟨List.forall_mem_cons.2 ⟨?_, List.forall_mem_cons.2
      ⟨?_, fun span hspan => ?_⟩⟩, fun span hspan => ?_⟩
    · exact SpanTree.mem_spans_self _
    · exact SpanTree.mem_spans (t := .node definition _) List.mem_cons_self
    · exact SpanTree.spans_subset List.mem_cons_self (hlabels hspan)
    · exact SpanTree.spans_subset (by simp) (body.spans_subset_tree hspan)

theorem Block.exists_tree_of_mem : ∀ blocks : List Block, ∀ span ∈ Block.spansOfAll blocks,
    ∃ t ∈ Block.treesOfAll blocks, span ∈ t.spans
  | [] => List.forall_mem_nil _
  | b :: bs => List.forall_mem_append.2
    ⟨fun _ hspan => ⟨b.tree, List.mem_cons_self, b.spans_subset_tree hspan⟩, fun span hspan => by
      obtain ⟨t, ht, hspan⟩ := Block.exists_tree_of_mem bs span hspan
      exact ⟨t, List.mem_cons_of_mem _ ht, hspan⟩⟩

end

end StaticConfig
