import StaticConfig.Proofs.Fields
import StaticConfig.Proofs.Reading.Places
import StaticConfig.Proofs.Reading.Expressions

/-!
Positions in the syntax tree. Every range in the tree of a file or of an expression starts at a
token, so it has the line and the column of its first byte, unless a lexer has passed a quoted
template that goes over the end of a line before it.
-/
namespace StaticConfig

namespace Attribute

/-- The ranges of the attribute, of its name and in its expression. -/
def spans (a : Attribute) : List Span := a.span :: a.nameSpan :: a.expr.spans

end Attribute

mutual

/-- The ranges of all that the body defines. -/
def Body.spans : Body → List Span
  | ⟨_, attributes, blocks⟩ => attributes.flatMap (fun e => e.2.spans) ++ Block.spansOfAll blocks

/-- The ranges of the block, of its type and labels, and of what is in it. -/
def Block.spans : Block → List Span
  | ⟨span, definition, _, _, labelSpans, body⟩ => span :: definition :: labelSpans ++ body.spans

def Block.spansOfAll : List Block → List Span
  | [] => []
  | b :: bs => b.spans ++ Block.spansOfAll bs

end

/-- The source is accepted, and this is a range in the tree. -/
inductive Source.HasSpan (source : Source) (span : Span) : Prop
  | file {body : Body} : Parser.file source = .ok body → span ∈ body.spans → HasSpan source span
  | expression {e : Expr} : Parser.expression source = .ok e → span ∈ e.spans → HasSpan source span

theorem Block.forall_spansOfAll {P : Span → Prop} {bs : List Block} :
    (∀ span ∈ spansOfAll bs, P span) ↔ ∀ b ∈ bs, ∀ span ∈ b.spans, P span := by
  induction bs with
  | nil => exact ⟨fun _ => nofun, fun _ => nofun⟩
  | cons b bs ih => rw [spansOfAll, List.forall_mem_append, ih, List.forall_mem_cons]

theorem Body.forall_spans {P : Span → Prop} {body : Body} :
    (∀ span ∈ body.spans, P span) ↔ (∀ e ∈ body.attributes, ∀ span ∈ e.2.spans, P span) ∧
      ∀ b ∈ body.blocks, ∀ span ∈ b.spans, P span := by
  obtain ⟨span, attributes, blocks⟩ := body
  rw [spans, List.forall_mem_append, Block.forall_spansOfAll, List.forall_mem_flatMap]

theorem Expr.Sound.placed_spans {source : Source} {e : Expr} (h : e.Sound source) :
    ∀ span ∈ e.spans, span.Placed source := by
  rw [spans, List.forall_mem_flatMap]
  intro p hp
  obtain ⟨hplaced, hsteps, hnames, -⟩ := h p hp
  have hsteps := List.forall_mem_map.2 hsteps
  exact List.forall_mem_cons.2 ⟨hplaced, List.forall_mem_append.2 ⟨hsteps, hnames⟩⟩

namespace Parser

variable {source : Source}

/-- The attributes have ranges that start at tokens. -/
def PlacedAttributes (source : Source) (attributes : Fields Attribute) : Prop :=
  ∀ e ∈ attributes, ∀ span ∈ e.2.spans, span.Placed source

/-- The blocks have ranges that start at tokens. -/
def PlacedBlocks (source : Source) (blocks : List Block) : Prop :=
  ∀ b ∈ blocks, ∀ span ∈ b.spans, span.Placed source

theorem From.endItem {back : List Char} {place : Nat} {s : State}
    (hs : Behind source back place s) (nested : Bool) :
    From s (endItem nested) fun _ => Behind source back place := by
  rw [Parser.endItem]
  refine From.current ?_
  split
  · exact (From.advance hs.stands).mono fun _ _ h => hs.goes h
  · exact From.pure hs
  · split
    · exact From.pure hs
    · exact From.failHere

theorem from_parseLabels (fuel : Nat) {back : List Char} {s : State} (hs : Stands source back s) :
    From s (parseLabels fuel) fun labels s' =>
      Stands source back s' ∧ ∀ label ∈ labels, label.2.Placed source := by
  induction fuel generalizing s with
  | zero => exact From.failHere
  | succ fuel ih =>
    obtain ⟨before, hread⟩ := hs.read
    have hplaced (hsolid : s.tok.Solid) : s.tok.span.Placed source :=
      ⟨back, before, s.tok, s.cursor, hread, hsolid, .inr (.refl _)⟩
    have hlabel (hsolid : s.tok.Solid) (text : String) :
        From s (advance >>= fun _ => parseLabels fuel >>= fun rest =>
          pure ((text, s.tok.span) :: rest)) fun labels s' =>
            Stands source back s' ∧ ∀ label ∈ labels, label.2.Placed source := by
      refine (From.advance hs).bind fun _ s1 h1 => (ih h1.stands).bind ?_
      rintro rest s2 ⟨h2, hrest⟩
      exact From.pure ⟨h2, List.forall_mem_cons.2 ⟨hplaced hsolid, hrest⟩⟩
    rw [parseLabels]
    refine From.current ?_
    split
    · next hkind => exact hlabel (Token.solid_of_kind hkind (by decide) (by decide)) _
    · next hkind =>
      refine (from_parseTemplate fuel hread.source_eq (within_of_read hread hkind)).bind ?_
      rintro parts _ ⟨rfl, -⟩
      split
      · exact From.failHere
      · exact hlabel (Token.solid_of_kind hkind (by decide) (by decide)) _
    · exact From.pure ⟨hs, fun _ hlabel => absurd hlabel List.not_mem_nil⟩

mutual

theorem from_parseBody : ∀ (fuel : Nat) (opening : Option Span) {back : List Char} {s : State},
    Stands source back s → From s (parseBody fuel opening) fun body s' =>
      Stands source back s' ∧ ∀ span ∈ body.spans, span.Placed source
  | 0, _, _, _, _ => From.failHere
  | fuel + 1, opening, back, s, hs => by
    rw [parseBody]
    have hnone : PlacedAttributes source [] := fun _ he => absurd he List.not_mem_nil
    refine (from_parseDefinitions fuel opening.isSome hnone hs).bind ?_
    rintro ⟨attributes, blocks⟩ s1 ⟨h1, hattributes, hblocks⟩
    exact From.get (From.pure ⟨h1, Body.forall_spans.2 ⟨hattributes, hblocks⟩⟩)

theorem from_parseDefinitions : ∀ (fuel : Nat) (nested : Bool) {prior : Fields Attribute}
    {back : List Char} {s : State}, PlacedAttributes source prior → Stands source back s →
      From s (parseDefinitions fuel nested prior) fun r s' => Stands source back s' ∧
        PlacedAttributes source r.1 ∧ PlacedBlocks source r.2
  | 0, _, _, _, _, _, _ => From.failHere
  | fuel + 1, nested, prior, back, s, hprior, hs => by
    rw [parseDefinitions]
    refine (From.skipNewlines hs).bind fun _ s1 ⟨h1, _⟩ => From.current ?_
    split
    · split
      · exact From.failHere
      · exact From.pure ⟨h1, hprior, nofun⟩
    · split
      · exact From.pure ⟨h1, hprior, nofun⟩
      · split
        · exact From.failHere
        · next hident =>
          rw [ne_eq, not_not] at hident
          have hname := h1.placed (Token.solid_of_kind hident nofun nofun)
          rw [Token.outer_of_ne (hident.trans_ne nofun)] at hname
          refine (From.advance h1).bind fun _ s2 h2 => From.sees ?_
          split
          · refine (From.advance h2.stands).bind fun _ s3 h3 => ?_
            refine (from_parseExpr fuel h3.stands).bind fun e s4 h4 => ?_
            refine (From.endItem h4.stands.behind nested).bind fun _ s5 h5 => ?_
            split
            · exact From.fail
            · refine from_parseDefinitions fuel nested (fun entry hentry => ?_) h5.stands
              rcases Fields.mem_insert hentry with rfl | hentry
              · have hspan := hname.congr (.through (.refl _) e.span)
                exact List.forall_mem_cons.2 ⟨hspan, List.forall_mem_cons.2
                  ⟨hname, h4.sound.placed_spans⟩⟩
              · exact hprior entry hentry
          · refine (from_parseBlock fuel nested hname h2.stands).bind ?_
            rintro block s3 ⟨h3, hblock⟩
            refine (from_parseDefinitions fuel nested hprior h3).bind ?_
            rintro ⟨attributes, blocks⟩ s4 ⟨h4, hattributes, hblocks⟩
            exact From.pure ⟨h4, hattributes, List.forall_mem_cons.2 ⟨hblock, hblocks⟩⟩

theorem from_parseBlock : ∀ (fuel : Nat) (nested : Bool) {type : Token} {back : List Char}
    {s : State}, type.span.Placed source → Stands source back s →
      From s (parseBlock fuel nested type) fun block s' =>
        Stands source back s' ∧ ∀ span ∈ block.spans, span.Placed source
  | 0, _, _, _, _, _, _ => From.failHere
  | fuel + 1, nested, type, back, s, htype, hs => by
    rw [parseBlock]
    refine (from_parseLabels fuel hs).bind fun labels s1 ⟨h1, hlabels⟩ => ?_
    extract_lets definition
    have hdefinition : definition.Placed source := by
      unfold definition
      split
      · exact htype.congr (.through (.refl _) _)
      · exact htype
    clear_value definition
    refine From.current ((From.expect h1 _ _).bind fun _ s2 ⟨_, h2⟩ => ?_)
    refine (from_parseBody fuel _ h2.stands).bind fun body s3 ⟨h3, hbody⟩ => From.current ?_
    refine (From.advance h3).bind fun _ s4 h4 => ?_
    refine (From.endItem h4.stands.behind nested).bind fun _ s5 h5 => From.pure ⟨h5.stands, ?_⟩
    rw [Block.spans, List.forall_mem_append, List.forall_mem_cons, List.forall_mem_cons,
      List.forall_mem_map]
    exact ⟨⟨htype.congr (.through (.refl _) _), hdefinition, hlabels⟩, hbody⟩

end

end Parser

theorem Source.HasSpan.placed {source : Source} {span : Span} (h : source.HasSpan span) :
    span.Placed source := by
  cases h with
  | @file body hfile hspan =>
    obtain ⟨s, hstart, hrun⟩ := Except.bind_eq_ok.1 hfile
    obtain ⟨r, hbody, rfl⟩ := Except.map_eq_ok.1 hrun
    have hs := Parser.stands_start .whole hstart
    exact (Parser.from_parseBody _ none hs r hbody).2 span hspan
  | expression hexpr hspan => exact (Parser.sound_of_expression hexpr).placed_spans span hspan

/-- In an accepted source without tabs every range starts at a token, or behind the quote that opens
it. It has the line and the column of its first byte exactly if none of the quoted templates that
the lexer has read before goes over the end of a line. Such a template has a backslash before this
end, so without one all ranges are right. -/
theorem Source.HasSpan.right_unless_hidden {source : Source} {span : Span}
    (htab : '\t' ∉ source.text.toList) (h : source.HasSpan span) :
    span.source = source ∧ (∃ back before, span.StartsAfter source back before) ∧
      (∀ back before, span.StartsAfter source back before →
        (span.Right ↔ ∀ u ∈ before, u.kind = .string → '\n' ∉ u.text.toList)) ∧
      (¬['\\', '\n'] <:+: source.text.toList → span.Right) := by
  obtain ⟨back, before, hstarts⟩ := h.placed
  refine ⟨hstarts.source_eq, ⟨back, before, hstarts⟩, fun _ _ h => h.right_iff htab, ?_⟩
  intro hescape
  exact hstarts.right htab hescape

theorem Source.hasSpan_of_file {source : Source} {span : Span}
    (h : (Parser.file source).toOption.any (fun body => decide (span ∈ body.spans)) = true) :
    source.HasSpan span := by
  cases hfile : Parser.file source with
  | error fault =>
    rw [hfile] at h
    cases h
  | ok body =>
    rw [hfile] at h
    exact .file hfile (of_decide_eq_true h)

/-- An expression in a template of the second line. -/
theorem Source.HasSpan.right_unless_hidden_interpolation :
    Source.HasSpan ⟨"main.tf", "a = b\nc = \"d$\x7b e \x7d\"\n"⟩
        ⟨⟨"main.tf", "a = b\nc = \"d$\x7b e \x7d\"\n"⟩, 2, 10, 15, 16⟩ ∧
      Span.Right ⟨⟨"main.tf", "a = b\nc = \"d$\x7b e \x7d\"\n"⟩, 2, 10, 15, 16⟩ := by
  have hspan : Source.HasSpan ⟨"main.tf", "a = b\nc = \"d$\x7b e \x7d\"\n"⟩
      ⟨⟨"main.tf", "a = b\nc = \"d$\x7b e \x7d\"\n"⟩, 2, 10, 15, 16⟩ :=
    Source.hasSpan_of_file (by decide +kernel)
  obtain ⟨-, -, -, hright⟩ := Source.HasSpan.right_unless_hidden (by decide) hspan
  exact ⟨hspan, hright (by decide)⟩

/-- An attribute in the third line that is put in the second one, as the template before it goes
over the end of a line in a comment. -/
theorem Source.HasSpan.wrong_behind_hidden_line : ∃ (source : Source) (span : Span),
    source.text = "x = \"$\x7b a /* \" \\\n \" */ \x7d\"\ny = b\n" ∧
      '\t' ∉ source.text.toList ∧ source.HasSpan span ∧ span.line = 2 ∧
        (source.slice 0 span.start).count '\n' = 2 ∧ ¬span.Right := by
  have hspan : Source.HasSpan ⟨"main.tf", "x = \"$\x7b a /* \" \\\n \" */ \x7d\"\ny = b\n"⟩
      ⟨⟨"main.tf", "x = \"$\x7b a /* \" \\\n \" */ \x7d\"\ny = b\n"⟩, 2, 1, 26, 31⟩ :=
    Source.hasSpan_of_file (by decide +kernel)
  refine ⟨_, _, rfl, by decide, hspan, rfl, by decide, fun hright => ?_⟩
  have hline := hright.line
  revert hline
  decide

end StaticConfig
