import StaticConfig.Proofs.Reading.Grown

/-!
The ranges in the tree of a file are nested. What a body defines is found one after the other, but
the body holds its attributes by name, and apart from the blocks. So their trees are put in order by
where they start.
-/
namespace StaticConfig

open StaticConfig.SpanTree (InOrder nested_node nested_leaf nested_through)

namespace Parser

variable {source : Source}

theorem Stands.start_lt {back : List Char} {s : State} (h : Stands source back s)
    (hkind : s.tok.kind = .ident) : s.tok.span.start < s.tok.span.stop := by
  obtain ⟨before, hread⟩ := h.read
  have hstart := hread.start_lt (hkind.trans_ne (by decide))
  rwa [Token.writtenStop_of_ne (hkind.trans_ne (by decide))] at hstart

theorem trailed_parseLabels (fuel : Nat) {back : List Char} {mark : Span} {s : State}
    (hmark : mark.Lies source) (hs : Behind source back mark.stop s) :
    From s (parseLabels fuel) fun labels =>
      Trailed source back mark (labels.map Prod.snd) := by
  induction fuel generalizing mark s with
  | zero => exact From.failHere
  | succ fuel ih =>
    have hfirst := hs.stands.lies
    have hlabel (text : String) : From s (advance >>= fun _ => parseLabels fuel >>= fun rest =>
        pure ((text, s.tok.span) :: rest)) fun labels =>
          Trailed source back mark (labels.map Prod.snd) := by
      refine (From.advance hs.stands).bind fun _ s1 h1 => ?_
      refine (ih hfirst h1.behind_span).bind fun rest s2 h2 => ?_
      exact From.pure (h2.cons hfirst hs.le_start)
    rw [parseLabels]
    refine From.current ?_
    split
    · exact hlabel _
    · next hkind =>
      obtain ⟨before, hread⟩ := hs.stands.read
      refine (inOrder_parseTemplate fuel hread.source_eq (within_of_read hread hkind)).bind ?_
      rintro parts _ ⟨rfl, -⟩
      split
      · exact From.failHere
      · exact hlabel _
    · exact From.pure (trailed_nil hmark hs)

/-- The range of the type and the labels. -/
theorem definition_eq (type : Span) (labels : List (String × Span)) :
    (match labels.getLast? with
      | some last => type.through last.2
      | none => type) = type.through ((labels.map Prod.snd).getLast?.getD type) := by
  rw [List.getLast?_map]
  cases labels.getLast? with
  | none => rw [Option.map_none, Option.getD_none, Span.through, Nat.max_self]
  | some last => rfl

def treesOfDefinitions (r : Fields Attribute × List Block) : List SpanTree :=
  r.1.map (fun e => e.2.tree) ++ Block.treesOfAll r.2

/-- More attributes and blocks were found from the place on, one after the other. -/
structure Defines (source : Source) (back : List Char) (place : Nat) (prior : Fields Attribute)
    (r : Fields Attribute × List Block) (items : List SpanTree) (s : State) : Prop where
  stands : Stands source back s
  perm : (treesOfDefinitions r).Perm (prior.map (fun e => e.2.tree) ++ items)
  inOrder : InOrder source place items s.tok.writtenStart
  positive : ∀ t ∈ items, t.span.start < t.span.stop

section Defines

variable {back : List Char} {place : Nat} {prior attributes : Fields Attribute}
  {blocks : List Block} {items : List SpanTree} {s s' : State}

theorem defines_nil (hs : Behind source back place s) :
    Defines source back place prior (prior, []) [] s :=
  ⟨hs.stands, .refl _, .nil hs.later, List.forall_mem_nil _⟩

theorem Defines.attribute {attr : Attribute} {r : Fields Attribute × List Block}
    (h : Defines source back attr.span.stop (Fields.insert attr.name attr prior) r items s)
    (hnew : Fields.get? attr.name prior = none) (hplace : place ≤ attr.span.start)
    (hattr : attr.tree.Nested source) (hpositive : attr.span.start < attr.span.stop) :
    Defines source back place prior r (attr.tree :: items) s := by
  refine ⟨h.stands, h.perm.trans ?_, .cons hplace hattr h.inOrder,
    List.forall_mem_cons.2 ⟨hpositive, h.positive⟩⟩
  have hadded := (Fields.insert_perm hnew attr).map fun e => e.2.tree
  exact (hadded.append_right items).trans List.perm_middle.symm

theorem Defines.block {block : Block}
    (h : Defines source back block.span.stop prior (attributes, blocks) items s)
    (hplace : place ≤ block.span.start) (hblock : block.tree.Nested source)
    (hpositive : block.span.start < block.span.stop) :
    Defines source back place prior (attributes, block :: blocks) (block.tree :: items) s := by
  have hspan := block.span_tree
  refine ⟨h.stands, ?_, .cons (hspan ▸ hplace) hblock (hspan ▸ h.inOrder),
    List.forall_mem_cons.2 ⟨hspan ▸ hpositive, h.positive⟩⟩
  have hmoved : (treesOfDefinitions (attributes, block :: blocks)).Perm
      (block.tree :: treesOfDefinitions (attributes, blocks)) := List.perm_middle
  exact hmoved.trans ((h.perm.cons _).trans List.perm_middle.symm)

end Defines

/-- The range of the attribute begins with its name. -/
theorem nested_attribute {back : List Char} {e : Expr} {name : Token} {s : State}
    (hname : name.span.Lies source) (h : Grown source back name.writtenStop e s) :
    (⟨name.span.through e.span, name.span, name.text, e⟩ : Attribute).tree.Nested source := by
  refine nested_through hname h.lies (.cons (Nat.le_refl _) (nested_leaf hname) ?_)
  exact (h.inOrder (.nil (Nat.le_refl _))).of_le name.le_writtenStop

mutual

theorem nested_parseBody : ∀ (fuel : Nat) (opening : Option Span) {back : List Char} {s : State},
    (∀ span ∈ opening, span.Lies source) →
      Behind source back (opening.elim 0 Span.stop) s →
        From s (parseBody fuel opening) fun body s' =>
          Behind source back (opening.elim 0 Span.stop) s' ∧ body.tree.Nested source ∧
            body.span = bodySpan source opening s'.tok.span
  | 0, _, _, _, _, _ => From.failHere
  | fuel + 1, opening, back, s, hopening, hs => by
    rw [parseBody]
    refine (defines_parseDefinitions fuel opening.isSome hs).bind ?_
    rintro ⟨attributes, blocks⟩ s1 ⟨items, h1⟩
    have hend := Nat.le_trans s1.tok.writtenStart_le h1.stands.lies.start_le_stop
    have htree (span : Span) : (⟨span, attributes, blocks⟩ : Body).tree = .node span items :=
      congrArg (SpanTree.node span) (SpanTree.sorted_eq h1.inOrder h1.positive h1.perm)
    refine From.get (From.pure ⟨⟨h1.stands, h1.inOrder.le⟩, ?_, ?_⟩)
    · rw [h1.stands.source_eq, htree]
      cases opening with
      | none =>
        have hsize := Source.le_size_of_boundary h1.stands.lies.stop
        exact nested_node source.lies_whole (h1.inOrder.to_le (Nat.le_trans hend hsize))
      | some span =>
        have hspan := hopening span rfl
        exact nested_through hspan h1.stands.lies
          ((h1.inOrder.of_le hspan.start_le_stop).to_le hend)
    · rw [h1.stands.source_eq]
termination_by structural fuel => fuel

theorem defines_parseDefinitions : ∀ (fuel : Nat) (nested : Bool) {prior : Fields Attribute}
    {back : List Char} {place : Nat} {s : State}, Behind source back place s →
      From s (parseDefinitions fuel nested prior) fun r s' =>
        ∃ items, Defines source back place prior r items s'
  | 0, _, _, _, _, _, _ => From.failHere
  | fuel + 1, nested, prior, back, place, s, hs => by
    rw [parseDefinitions]
    refine (From.passNewlines hs).bind fun _ s1 h1 => From.current ?_
    split
    · split
      · exact From.failHere
      · exact From.pure ⟨[], defines_nil h1⟩
    · split
      · exact From.pure ⟨[], defines_nil h1⟩
      · split
        · exact From.failHere
        · next hident =>
          rw [ne_eq, not_not] at hident
          have hname := h1.stands.lies
          have hpositive := h1.stands.start_lt hident
          refine (From.advance h1.stands).bind fun _ s2 h2 => From.sees ?_
          split
          · refine (From.advance h2.stands).bind fun _ s3 h3 => ?_
            refine (grown_parseExpr fuel (h2.behind.goes h3)).bind fun e s4 h4 => ?_
            have hend := h4.all_behind.of_le s1.tok.le_writtenStop
            refine (From.endItem (hend.through h4.behind) nested).bind fun _ s5 h5 => ?_
            split
            · exact From.fail
            · next hnew =>
              refine (defines_parseDefinitions fuel nested h5).mono fun r s6 ⟨items, h6⟩ => ?_
              refine ⟨_, h6.attribute hnew h1.le_start (nested_attribute hname h4) ?_⟩
              exact Nat.lt_of_lt_of_le hpositive (Nat.le_max_right _ _)
          · refine (nested_parseBlock fuel nested hname h2.behind_span).bind ?_
            rintro block s3 ⟨h3, hblock, hstart, hstop⟩
            refine (defines_parseDefinitions fuel nested h3).bind ?_
            rintro ⟨attributes, blocks⟩ s4 ⟨items, h4⟩
            refine From.pure ⟨_, h4.block ?_ hblock ?_⟩
            · rw [hstart]
              exact h1.le_start
            · rw [hstart]
              exact Nat.lt_of_lt_of_le hpositive hstop
termination_by structural fuel => fuel

theorem nested_parseBlock : ∀ (fuel : Nat) (nested : Bool) {type : Token} {back : List Char}
    {s : State}, type.span.Lies source → Behind source back type.span.stop s →
      From s (parseBlock fuel nested type) fun block s' =>
        Behind source back block.span.stop s' ∧ block.tree.Nested source ∧
          block.span.start = type.span.start ∧ type.span.stop ≤ block.span.stop
  | 0, _, _, _, _, _, _ => From.failHere
  | fuel + 1, nested, type, back, s, htype, hs => by
    rw [parseBlock]
    refine (trailed_parseLabels fuel htype hs).bind fun labels s1 h1 => ?_
    extract_lets definition
    have hdefinition : definition =
        type.span.through ((labels.map Prod.snd).getLast?.getD type.span) :=
      definition_eq type.span labels
    clear_value definition
    subst hdefinition
    refine From.current ((From.expect h1.behind.stands _ _).bind fun _ s2 ⟨_, h2⟩ => ?_)
    have hopening := h1.behind.stands.lies
    have hlabels := (h1.behind.of_le h1.inOrder.le).through h1.behind
    refine (nested_parseBody fuel (some s1.tok.span) ?_ h2.behind_span).bind
      fun body s3 ⟨h3, hbody, hspan⟩ => From.current ?_
    · rintro _ ⟨⟩
      exact hopening
    have hclose := h3.stands.lies
    have hclosing : s1.tok.span.stop ≤ s3.tok.span.stop :=
      Nat.le_trans h3.le_start hclose.start_le_stop
    have htypeStop : type.span.stop ≤ s3.tok.span.stop := calc
      type.span.stop ≤ s1.tok.span.start := (h1.behind.of_le h1.inOrder.le).le_start
      _ ≤ s1.tok.span.stop := hopening.start_le_stop
      _ ≤ s3.tok.span.stop := hclosing
    refine (From.advance h3.stands).bind fun _ s4 h4 => ?_
    have hbehind := (h4.behind_span.of_le htypeStop).through h4.behind_span
    refine (From.endItem hbehind nested).bind fun _ s5 h5 => ?_
    refine From.pure ⟨h5, ?_, rfl, Nat.le_max_right _ _⟩
    have hdefinition := nested_through htype h1.lies (h1.inOrder.of_le htype.start_le_stop)
    refine nested_through htype hclose (.cons (Nat.le_refl _) hdefinition (.single ?_ hbody ?_))
    · rw [body.span_tree, hspan]
      exact hlabels.le_start
    · rw [body.span_tree, hspan]
      exact Nat.max_le.2 ⟨Nat.le_refl _, hclosing⟩
termination_by structural fuel => fuel

end

/-- In the tree of a file that is accepted, each range goes from one place between characters to a
later one, and covers the ranges right below, which stand one after the other. No range of the
body, its blocks, attributes, expressions and steps is left out. -/
theorem nested_of_file {source : Source} {body : Body} (h : file source = .ok body) :
    (∀ span ∈ body.spans, span ∈ body.tree.spans) ∧
      ∀ t ∈ body.tree.subtrees, t.span.Lies source ∧ t.span.stop ≤ source.size ∧
        (∀ u ∈ t.inner, t.span.start ≤ u.span.start ∧ u.span.stop ≤ t.span.stop) ∧
          t.inner.Pairwise fun u v => u.span.stop ≤ v.span.start := by
  obtain ⟨s, hstart, hrun⟩ := Except.bind_eq_ok.1 h
  obtain ⟨r, hbody, rfl⟩ := Except.map_eq_ok.1 hrun
  have hs := behind_start .whole hstart
  have hnone : ∀ span ∈ (none : Option Span), span.Lies source := by rintro _ ⟨⟩
  obtain ⟨-, hnested, -⟩ := nested_parseBody _ none hnone hs r hbody
  refine ⟨fun span hspan => Body.spans_subset_tree _ hspan, fun t ht => ?_⟩
  obtain ⟨hlies, hcovers, hdisjoint⟩ := hnested t ht
  exact ⟨hlies, Source.le_size_of_boundary hlies.stop, hcovers, hdisjoint⟩

/-- A block with a template in which a splat stands. -/
def splatInTemplate : Source :=
  ⟨"main.tf", "a \"b\" \x7b\n  c = \"d$\x7b e.f[*].g \x7d\"\n\x7d\n"⟩

theorem nested_of_file_block :
    ∃ body, file splatInTemplate = .ok body ∧
      body.blocks.length = 1 ∧ (∀ span ∈ body.spans, span ∈ body.tree.spans) ∧
        ∀ t ∈ body.tree.subtrees, t.span.stop ≤ 33 ∧
          t.inner.Pairwise fun u v => u.span.stop ≤ v.span.start := by
  have hshape : (file splatInTemplate).toOption.map (fun body => body.blocks.length) = some 1 := by
    decide +kernel
  cases hfile : file splatInTemplate with
  | error fault =>
    rw [hfile] at hshape
    cases hshape
  | ok body =>
    rw [hfile] at hshape
    obtain ⟨hspans, hall⟩ := nested_of_file hfile
    refine ⟨body, rfl, Option.some.inj hshape, hspans, fun t ht => ?_⟩
    obtain ⟨-, hsize, -, hdisjoint⟩ := hall t ht
    exact ⟨Nat.le_trans hsize (by decide +kernel), hdisjoint⟩

end Parser

end StaticConfig
