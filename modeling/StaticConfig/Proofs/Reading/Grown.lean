import StaticConfig.Proofs.Reading.Trees

/-!
The ranges of what the parser finds are nested: one lemma for each of its functions, by recursion
along with them. What carries the induction is that the parser stands behind what it has found last,
so whatever comes next starts there at the earliest.
-/
namespace StaticConfig

open StaticConfig.Lexer (Read Boundary Written)
open StaticConfig.SpanTree (InOrder nested_node nested_leaf nested_through)

namespace Token

theorem writtenStart_le (t : Token) : t.writtenStart ≤ t.span.start := by
  unfold writtenStart
  split
  · exact Nat.sub_le _ _
  · exact Nat.le_refl _

theorem le_writtenStop (t : Token) : t.span.stop ≤ t.writtenStop := by
  unfold writtenStop
  split
  · exact Nat.le_succ _
  · exact Nat.le_refl _

end Token

namespace Lexer.Read

variable {source : Source} {back : List Char} {before : List Token} {t : Token} {after : Cursor}

theorem written (h : Read source back before t after) : ∃ front cs rest,
    source.text.toList = front ++ cs ++ rest ∧ Written t (byteLength front) cs ∧
      (t.kind ≠ .eof → cs ≠ []) := by
  obtain ⟨pos, hlexed, hnext⟩ := h
  obtain ⟨middle, ⟨front, hsplit, hoffset⟩, hreading⟩ := hlexed.lies.reading hnext
  obtain ⟨cs, htakes⟩ := hreading.takes
  refine ⟨front, cs, after.rest ++ back, ?_, hoffset ▸ htakes.written, htakes.goes⟩
  rw [hsplit, htakes.passes.split]
  simp

theorem lies (h : Read source back before t after) : t.span.Lies source := by
  obtain ⟨front, cs, rest, hsplit, hwritten, -⟩ := h.written
  obtain ⟨hstart, hstop⟩ := hwritten.boundaries
  have hlift {place : Nat} (hplace : Boundary (byteLength front) cs place) :
      Boundary 0 source.text.toList place := by
    rw [hsplit, List.append_assoc]
    refine Boundary.prepend ?_
    rw [Nat.zero_add]
    exact hplace.append rest
  exact ⟨h.source_eq, hwritten.range.2.1, hlift hstart, hlift hstop⟩

theorem outer_lies (h : Read source back before t after) : t.outer.Lies source := by
  obtain ⟨hstart, hstop⟩ := Source.boundary_of_segment h.segment
  refine ⟨?_, ?_, t.outer_start.symm ▸ hstart, t.outer_stop.symm ▸ hstop⟩
  · unfold Token.outer
    split
    · exact h.source_eq
    · exact h.source_eq
  · rw [Token.outer_start, Token.outer_stop]
    exact h.start_le_stop

theorem start_lt (h : Read source back before t after) (ht : t.kind ≠ .eof) :
    t.span.start < t.writtenStop := by
  obtain ⟨front, cs, rest, -, hwritten, hgoes⟩ := h.written
  rw [hwritten.writtenStop_eq]
  exact hwritten.start_lt (hgoes ht)

/-- Between its quotes a template has its text. -/
theorem stop_eq (h : Read source back before t after) (ht : t.kind = .string) :
    t.span.stop = t.span.start + byteLength t.text.toList := by
  obtain ⟨pos, -, hnext⟩ := h
  obtain ⟨gap, middle, -, hreading⟩ := reading_of_next hnext
  cases hreading with
  | bare hkind => exact absurd ht hkind
  | newline => cases ht
  | quoted => rw [String.toList_ofList]

end Lexer.Read

namespace Parser

/-- Up to the quote of the template there is its rest. -/
theorem Within.size_eq {source : Source} {back cs : List Char} {offset : Nat}
    (h : Within source back cs offset) :
    source.size = offset + byteLength cs + 1 + byteLength back := by
  obtain ⟨outer, before, t, pos, after, passed, hlexed, hnext, hstring, rfl, htext, rfl⟩ := h
  have hread : Read source outer before t after := ⟨pos, hlexed, hnext⟩
  have hstop := hread.stop_eq hstring
  have hafter := hread.offset_eq
  rw [Token.writtenStop, if_pos hstring] at hafter
  obtain ⟨front, hsplit, hoffset⟩ := hread.lexed.lies
  rw [htext, byteLength_append] at hstop
  rw [Source.size_eq, hsplit, byteLength_append, byteLength_append, byteLength_append]
  omega

section Facts

variable {source : Source} {back : List Char} {s s' : State} {place : Nat} {a b : Span}
  {e : Expr} {ts : List SpanTree}

theorem Stands.lies (h : Stands source back s) : s.tok.span.Lies source := by
  obtain ⟨before, hread⟩ := h.read
  exact hread.lies

theorem Behind.le_start (h : Behind source back place s) : place ≤ s.tok.span.start :=
  Nat.le_trans h.later s.tok.writtenStart_le

theorem Behind.of_le {place' : Nat} (h : Behind source back place s) (hle : place' ≤ place) :
    Behind source back place' s :=
  ⟨h.stands, Nat.le_trans hle h.later⟩

theorem Behind.through (ha : Behind source back a.stop s) (hb : Behind source back b.stop s) :
    Behind source back (a.through b).stop s :=
  ⟨ha.stands, Nat.max_le.2 ⟨hb.later, ha.later⟩⟩

/-- The state stands behind the token that has been passed. -/
theorem Onward.behind_span (h : Onward source back s s') :
    Behind source back s.tok.span.stop s' :=
  h.behind.of_le s.tok.le_writtenStop

/-- From the place on the expression was found, and the state stands behind it. -/
structure Grown (source : Source) (back : List Char) (place : Nat) (e : Expr) (s : State) :
    Prop where
  behind : Behind source back e.span.stop s
  later : place ≤ e.span.start
  nested : e.tree.Nested source

theorem Grown.lies (h : Grown source back place e s) : e.span.Lies source :=
  e.span_tree ▸ h.nested.lies

theorem Grown.le (h : Grown source back place e s) : place ≤ e.span.stop :=
  Nat.le_trans h.later h.lies.start_le_stop

theorem Grown.all_behind (h : Grown source back place e s) : Behind source back place s :=
  h.behind.of_le h.le

theorem Grown.stands (h : Grown source back place e s) : Stands source back s := h.behind.stands

/-- What was found stands before what is found later. -/
theorem Grown.inOrder {stop : Nat} (h : Grown source back place e s)
    (hts : InOrder source e.span.stop ts stop) : InOrder source place (e.tree :: ts) stop := by
  refine .cons ?_ h.nested ?_
  · rw [Expr.span_tree]
    exact h.later
  · rw [Expr.span_tree]
    exact hts

/-- An expression that consists of a token without parts. -/
theorem grown_token (hs : Behind source back place s) (hs' : Behind source back s.tok.span.stop s')
    (htree : e.tree = .leaf s.tok.span) : Grown source back place e s' := by
  have hspan : e.span = s.tok.span := by rw [← Expr.span_tree, htree]; rfl
  exact ⟨hspan ▸ hs', hspan ▸ hs.le_start, htree ▸ nested_leaf hs.stands.lies⟩

/-- An expression from a token to the one of the state. -/
theorem grown_enclosed {t : Token} (ht : t.span.Lies source) (hplace : place ≤ t.span.start)
    (hs : Stands source back s) (hgo : Onward source back s s')
    (hts : InOrder source t.writtenStop ts s.tok.writtenStart)
    (htree : e.tree = .node (t.span.through s.tok.span) ts) : Grown source back place e s' := by
  have hspan : e.span = t.span.through s.tok.span := by rw [← Expr.span_tree, htree]; rfl
  have hopening := t.le_writtenStop
  have hclosing := hgo.behind_span
  have hclose := Nat.le_trans s.tok.writtenStart_le hs.lies.start_le_stop
  have hle := hts.le
  have hstop : t.span.stop ≤ s.tok.span.stop := by omega
  refine ⟨?_, ?_, ?_⟩
  · rw [hspan]
    exact (hclosing.of_le hstop).through hclosing
  · rw [hspan]
    exact hplace
  · rw [htree]
    have hstart := Nat.le_trans ht.start_le_stop hopening
    exact nested_through ht hs.lies ((hts.of_le hstart).to_le hclose)

/-- An expression that goes on, with more parts. -/
theorem Grown.through {e' : Expr} {last : Span} (h : Grown source back place e s)
    (hlast : last.Lies source) (hs : Behind source back last.stop s')
    (hts : InOrder source e.span.stop ts last.stop)
    (htree : e'.tree = .node (e.span.through last) (e.tree :: ts)) :
    Grown source back place e' s' := by
  have hspan : e'.span = e.span.through last := by rw [← Expr.span_tree, htree]; rfl
  refine ⟨?_, ?_, ?_⟩
  · rw [hspan]
    exact (hs.of_le hts.le).through hs
  · rw [hspan]
    exact h.later
  · rw [htree]
    have hself : Grown source back e.span.start e s := ⟨h.behind, Nat.le_refl _, h.nested⟩
    exact nested_through h.lies hlast (hself.inOrder hts)

theorem Grown.follow {step : Step} (h : Grown source back place e s)
    (hstep : step.span.Lies source) (hle : e.span.stop ≤ step.span.start)
    (hs : Behind source back step.span.stop s') :
    Grown source back place (e.follow step) s' := by
  have hts : InOrder source e.span.stop [step.tree] step.span.stop :=
    .single hle (nested_leaf hstep) (Nat.le_refl _)
  have hspan := span_follow e step
  refine ⟨?_, ?_, ?_⟩
  · rw [hspan]
    exact (hs.of_le hts.le).through hs
  · rw [hspan]
    exact h.later
  · -- More steps stand behind those that are there already.
    have hmore {inner : List SpanTree} (htree : e.tree = .node e.span inner) :
        (SpanTree.node (e.span.through step.span) (inner ++ [step.tree])).Nested source := by
      have hnested := h.nested
      rw [htree] at hnested
      exact nested_through h.lies hstep (hnested.inOrder.append hts)
    cases e with
    | traversal span root steps =>
      rw [Expr.follow, Expr.tree, List.map_append]
      exact hmore rfl
    | relative span subject steps =>
      rw [Expr.follow, Expr.tree, List.map_append]
      exact hmore rfl
    | _ => exact (h.through hstep hs hts rfl).nested

/-- The ranges that follow the mark were found, and the state stands behind the last one. -/
structure Trailed (source : Source) (back : List Char) (mark : Span) (spans : List Span)
    (s : State) : Prop where
  behind : Behind source back (spans.getLast?.getD mark).stop s
  lies : (spans.getLast?.getD mark).Lies source
  inOrder : InOrder source mark.stop (spans.map .leaf) (spans.getLast?.getD mark).stop

theorem trailed_nil {mark : Span} (hmark : mark.Lies source)
    (hs : Behind source back mark.stop s) : Trailed source back mark [] s :=
  ⟨hs, hmark, .nil (Nat.le_refl _)⟩

theorem Trailed.cons {mark first : Span} {spans : List Span}
    (h : Trailed source back first spans s) (hfirst : first.Lies source)
    (hle : mark.stop ≤ first.start) : Trailed source back mark (first :: spans) s := by
  have hlast : (first :: spans).getLast?.getD mark = spans.getLast?.getD first := by
    rw [List.getLast?_cons]
    rfl
  refine ⟨?_, ?_, ?_⟩
  · rw [hlast]
    exact h.behind
  · rw [hlast]
    exact h.lies
  · rw [hlast]
    exact .cons hle (nested_leaf hfirst) h.inOrder

theorem Grown.splat {mark : Span} {each : List Step} (h : Grown source back place e s)
    (hle : e.span.stop ≤ mark.stop) (heach : Trailed source back mark (each.map Step.span) s') :
    Grown source back place (splat e mark each) s' := by
  have hsteps : (each.map Step.span).map SpanTree.leaf = each.map Step.tree := List.map_map
  have hlast : (each.map Step.span).getLast? = each.getLast?.map Step.span := List.getLast?_map
  obtain ⟨hbehind, hlies, hinOrder⟩ := heach
  rw [hsteps] at hinOrder
  rw [hlast] at hbehind hlies hinOrder
  exact h.through hlies hbehind (hinOrder.of_le hle) rfl

end Facts

variable {source : Source}

theorem behind_start {back : List Char} {pos : Cursor} {nesting : Nat} {s : State}
    (hlexed : Lexer.Lexed source back [] pos) (h : start source pos nesting = .ok s) :
    Behind source back pos.offset s := by
  obtain ⟨⟨t, after⟩, hfetch, hs⟩ := Except.bind_eq_ok.1 h
  cases hs
  obtain ⟨hread, hbeside, -⟩ := read_of_fetch hlexed hfetch
  exact ⟨⟨rfl, hread⟩, hbeside.le⟩

theorem grown_negated {back : List Char} {place : Nat} {e : Expr} {s s' : State} (op : UnaryOp)
    (hs : Behind source back place s) (h : Grown source back s.tok.writtenStop e s') :
    Grown source back place (negated (s.tok.span.through e.span) op e) s' := by
  have hoperator := hs.stands.lies
  have hle : s.tok.span.stop ≤ e.span.start := Nat.le_trans s.tok.le_writtenStop h.later
  have hbehind := (h.behind.of_le (Nat.le_trans hle h.lies.start_le_stop)).through h.behind
  unfold negated
  split
  · exact ⟨hbehind, hs.le_start, nested_leaf (hoperator.through h.lies)⟩
  · refine ⟨hbehind, hs.le_start, nested_through hoperator h.lies ?_⟩
    exact (h.inOrder (.nil (Nat.le_refl _))).of_le
      (Nat.le_trans hoperator.start_le_stop s.tok.le_writtenStop)

/-- A template with its quotes, between which the interpolations are found. -/
theorem grown_template {back : List Char} {place : Nat} {parts : List TemplatePart}
    {s s' : State} (hkind : s.tok.kind = .string) (hs : Behind source back place s)
    (hgo : Onward source back s s')
    (hparts : InOrder source s.tok.span.start (Expr.treesOfTemplate parts) s.tok.span.stop) :
    Grown source back place (.template (withQuotes s.tok.span) parts) s' := by
  obtain ⟨before, hread⟩ := hs.stands.read
  have houter : s.tok.outer = withQuotes s.tok.span := if_pos hkind
  rw [← houter]
  have hspan : (Expr.template s.tok.outer parts).span = s.tok.outer := rfl
  refine ⟨?_, ?_, nested_node hread.outer_lies ?_⟩
  · rw [hspan, Token.outer_stop]
    exact hgo.behind
  · rw [hspan, Token.outer_start]
    exact hs.later
  · rw [Token.outer_start, Token.outer_stop]
    exact (hparts.of_le s.tok.writtenStart_le).to_le s.tok.le_writtenStop

mutual

theorem grown_parseExpr : ∀ (fuel : Nat) {back : List Char} {place : Nat} {s : State},
    Behind source back place s → From s (parseExpr fuel) (Grown source back place)
  | 0, _, _, _, _ => From.failHere
  | fuel + 1, back, place, s, hs => by
    rw [parseExpr]
    refine (grown_parseBinary fuel BinaryOp.levels hs).bind fun cond s1 h1 => From.sees ?_
    split
    · refine (From.advance h1.stands).bind fun _ s2 h2 => ?_
      refine (grown_parseExpr fuel (h1.behind.goes h2)).bind fun yes s3 h3 => ?_
      refine (From.expect h3.stands _ _).bind fun _ s4 ⟨_, h4⟩ => ?_
      refine (grown_parseExpr fuel (h3.behind.goes h4)).bind fun no s5 h5 => From.pure ?_
      exact h1.through h5.lies h5.behind (h3.inOrder (h5.inOrder (.nil (Nat.le_refl _)))) rfl
    · exact From.pure h1
termination_by structural fuel => fuel

theorem grown_parseBinary : ∀ (fuel : Nat) (levels : List (List BinaryOp)) {back : List Char}
    {place : Nat} {s : State}, Behind source back place s →
      From s (parseBinary fuel levels) (Grown source back place)
  | 0, _, _, _, _, _ => From.failHere
  | fuel + 1, [], back, place, s, hs => grown_parseUnary fuel hs
  | fuel + 1, level :: tighter, back, place, s, hs => by
    rw [parseBinary]
    refine (grown_parseBinary fuel tighter hs).bind fun lhs s1 h1 => ?_
    exact grown_parseOperators fuel level tighter h1
termination_by structural fuel => fuel

theorem grown_parseOperators : ∀ (fuel : Nat) (level : List BinaryOp)
    (tighter : List (List BinaryOp)) {back : List Char} {place : Nat} {lhs : Expr} {s : State},
      Grown source back place lhs s →
        From s (parseOperators fuel level tighter lhs) (Grown source back place)
  | 0, _, _, _, _, _, _, _ => From.failHere
  | fuel + 1, level, tighter, back, place, lhs, s, h => by
    rw [parseOperators]
    refine From.current ?_
    split
    · exact From.pure h
    · refine (From.advance h.stands).bind fun _ s1 h1 => ?_
      refine (grown_parseBinary fuel tighter (h.behind.goes h1)).bind fun rhs s2 h2 => ?_
      refine grown_parseOperators fuel level tighter ?_
      exact h.through h2.lies h2.behind (h2.inOrder (.nil (Nat.le_refl _))) rfl
termination_by structural fuel => fuel

theorem grown_parseUnary : ∀ (fuel : Nat) {back : List Char} {place : Nat} {s : State},
    Behind source back place s → From s (parseUnary fuel) (Grown source back place)
  | 0, _, _, _, _ => From.failHere
  | fuel + 1, back, place, s, hs => by
    rw [parseUnary]
    refine From.current ?_
    extract_lets op?
    clear_value op?
    cases op? with
    | none => exact grown_parsePostfix fuel hs
    | some op =>
      refine (From.advance hs.stands).bind fun _ s1 h1 => ?_
      refine (grown_parseUnary fuel h1.behind).bind fun e s2 h2 => From.pure ?_
      exact grown_negated op hs h2
termination_by structural fuel => fuel

theorem grown_parsePostfix : ∀ (fuel : Nat) {back : List Char} {place : Nat} {s : State},
    Behind source back place s → From s (parsePostfix fuel) (Grown source back place)
  | 0, _, _, _, _ => From.failHere
  | fuel + 1, back, place, s, hs => by
    rw [parsePostfix]
    exact (grown_parsePrimary fuel hs).bind fun e s1 h1 => grown_parseSteps fuel h1
termination_by structural fuel => fuel

theorem grown_parseSteps : ∀ (fuel : Nat) {back : List Char} {place : Nat} {e : Expr} {s : State},
    Grown source back place e s → From s (parseSteps fuel e) (Grown source back place)
  | 0, _, _, _, _, _ => From.failHere
  | fuel + 1, back, place, e, s, h => by
    rw [parseSteps]
    refine From.current ?_
    have hmark := h.stands.lies
    have hle := h.behind.le_start
    split
    · refine (From.advance h.stands).bind fun _ s1 h1 => From.current ?_
      have hname := h1.stands.lies
      have hgo {s2 : State} (h2 : Onward source back s1 s2) {step : Step}
          (hspan : step.span = s.tok.span.through s1.tok.span) :
          Grown source back place (e.follow step) s2 := by
        refine h.follow (hspan ▸ hmark.through hname) (hspan ▸ hle) ?_
        rw [hspan]
        exact (h1.behind_span.goes h2).through h2.behind_span
      split
      · exact (From.advance h1.stands).bind fun _ s2 h2 => grown_parseSteps fuel (hgo h2 rfl)
      · split
        · exact From.failHere
        · exact (From.advance h1.stands).bind fun _ s2 h2 => grown_parseSteps fuel (hgo h2 rfl)
      · split
        · refine (From.advance h1.stands).bind fun _ s2 h2 => ?_
          have hstar := Nat.le_trans (h.behind.goes h1).le_start hname.start_le_stop
          refine (trailed_parseSplatSteps fuel true hname h2.behind_span).bind fun each s3 h3 => ?_
          exact grown_parseSteps fuel (h.splat hstar h3)
        · exact From.failHere
    · split
      · refine From.opening h.stands fun s1 h1 => From.sees ?_
        split
        · refine (From.advance h1.stands).bind fun _ s2 h2 => ?_
          refine From.closing h2.stands _ _ fun s3 _ h3 => ?_
          have hclose := h2.stands.lies
          have hend := Nat.le_trans ((h.behind.goes h1).goes h2).le_start hclose.start_le_stop
          refine (trailed_parseSplatSteps fuel false hclose h3.behind_span).bind
            fun each s4 h4 => ?_
          exact grown_parseSteps fuel (h.splat hend h4)
        · refine (grown_parseExpr fuel h1.behind).bind fun key s2 h2 => ?_
          refine From.closing h2.stands _ _ fun s3 _ h3 => ?_
          have hclose := h2.stands.lies
          split
          · refine grown_parseSteps fuel (h.follow (hmark.through hclose) hle ?_)
            have hopening := (h2.all_behind.goes h3).of_le s.tok.le_writtenStop
            exact hopening.through h3.behind_span
          · refine grown_parseSteps fuel (h.through hclose h3.behind_span ?_ rfl)
            have hend := Nat.le_trans h2.behind.le_start hclose.start_le_stop
            have hbefore := Nat.le_trans h.behind.later h.stands.start_le_stop
            exact (h2.inOrder (.nil hend)).of_le hbefore
      · exact From.pure h
termination_by structural fuel => fuel

theorem trailed_parseSplatSteps : ∀ (fuel : Nat) (attrsOnly : Bool) {back : List Char}
    {mark : Span} {s : State}, mark.Lies source → Behind source back mark.stop s →
      From s (parseSplatSteps fuel attrsOnly) fun each =>
        Trailed source back mark (each.map Step.span)
  | 0, _, _, _, _, _, _ => From.failHere
  | fuel + 1, attrsOnly, back, mark, s, hmark, hs => by
    rw [parseSplatSteps]
    refine From.current ?_
    have hfirst := hs.stands.lies
    have hle := hs.le_start
    have hnil : Trailed source back mark (([] : List Step).map Step.span) s := trailed_nil hmark hs
    split
    · refine From.peek fun ahead after hahead => ?_
      split
      · next hident =>
        rw [hs.stands.source_eq] at hahead
        refine (From.advance hs.stands).bind fun _ s1 h1 => From.current ?_
        have hsame : s1.tok = ahead := h1.ahead ahead after hahead (hident.trans_ne nofun)
        refine (From.advance h1.stands).bind fun _ s2 h2 => ?_
        have hspan := hfirst.through h1.stands.lies
        have hbehind := (h1.behind_span.goes h2).through h2.behind_span
        rw [hsame] at hspan hbehind
        refine (trailed_parseSplatSteps fuel attrsOnly hspan hbehind).bind fun rest s3 h3 => ?_
        exact From.pure (h3.cons hspan hle)
      · exact From.pure hnil
    · split
      · refine From.get (From.opening hs.stands fun s1 h1 => ?_)
        refine (grown_parseExpr fuel h1.behind).bind fun key s2 h2 => From.leave (From.current ?_)
        split
        · split
          · refine (From.advance (h2.stands.nested _)).bind fun _ s3 h3 => ?_
            have h3 := h3.of_nested
            have hspan := hfirst.through h2.stands.lies
            have hopening := (h2.all_behind.goes h3).of_le s.tok.le_writtenStop
            have hbehind := hopening.through h3.behind_span
            refine (trailed_parseSplatSteps fuel attrsOnly hspan hbehind).bind fun rest s4 h4 => ?_
            exact From.pure (h4.cons hspan hle)
          · exact From.set (From.pure hnil)
        · exact From.set (From.pure hnil)
      · exact From.pure hnil
termination_by structural fuel => fuel

theorem grown_parsePrimary : ∀ (fuel : Nat) {back : List Char} {place : Nat} {s : State},
    Behind source back place s → From s (parsePrimary fuel) (Grown source back place)
  | 0, _, _, _, _ => From.failHere
  | fuel + 1, back, place, s, hs => by
    rw [parsePrimary]
    refine From.current ?_
    split
    · split
      · exact (From.advance hs.stands).bind fun _ s1 h1 =>
          From.pure (grown_token hs h1.behind_span rfl)
      · exact From.failHere
    · next hkind =>
      obtain ⟨before, hread⟩ := hs.stands.read
      refine (inOrder_parseTemplate fuel hread.source_eq (within_of_read hread hkind)).bind ?_
      rintro parts _ ⟨rfl, hparts⟩
      rw [← hread.stop_eq hkind] at hparts
      exact (From.advance hs.stands).bind fun _ s1 h1 =>
        From.pure (grown_template hkind hs h1 hparts)
    · exact grown_parseNamed fuel hs
    · split
      · refine From.opening hs.stands fun s1 h1 => ?_
        refine (grown_parseExpr fuel h1.behind).bind fun e s2 h2 => ?_
        refine From.closing h2.stands _ _ fun s3 _ h3 => From.pure ?_
        exact grown_enclosed hs.stands.lies hs.le_start h2.stands h3
          (h2.inOrder (.nil h2.behind.later)) rfl
      · split
        · exact grown_parseTuple fuel hs
        · split
          · exact grown_parseObject fuel hs
          · exact From.failHere
    · exact From.failHere
termination_by structural fuel => fuel

theorem grown_parseNamed : ∀ (fuel : Nat) {back : List Char} {place : Nat} {s : State},
    Behind source back place s → From s (parseNamed fuel s.tok) (Grown source back place)
  | 0, _, _, _, _ => From.failHere
  | fuel + 1, back, place, s, hs => by
    rw [parseNamed]
    refine (From.advance hs.stands).bind fun _ s1 h1 => ?_
    split
    · exact From.pure (grown_token hs h1.behind_span rfl)
    · refine (from_qualified fuel h1.behind).bind fun name s2 ⟨h2, _⟩ => From.sees ?_
      split
      · refine From.opening h2.stands fun s3 h3 => ?_
        refine (inOrder_parseArgs fuel (h2.goes h3)).bind ?_
        rintro ⟨args, expand⟩ s4 ⟨h4, hargs⟩
        refine From.closed h4 fun s5 h5 => From.pure ?_
        exact grown_enclosed hs.stands.lies hs.le_start h4 h5 hargs rfl
      · split
        · exact From.fail
        · exact From.pure (grown_token hs (h2.of_le s.tok.le_writtenStop) rfl)
termination_by structural fuel => fuel

theorem inOrder_parseArgs : ∀ (fuel : Nat) {back : List Char} {place : Nat} {s : State},
    Behind source back place s → From s (parseArgs fuel) fun r s' => Stands source back s' ∧
      InOrder source place (Expr.treesOfAll r.1) s'.tok.writtenStart
  | 0, _, _, _, _ => From.failHere
  | fuel + 1, back, place, s, hs => by
    rw [parseArgs]
    refine From.sees ?_
    split
    · exact From.pure ⟨hs.stands, .nil hs.later⟩
    · refine (grown_parseExpr fuel hs).bind fun arg s1 h1 => From.current ?_
      split
      · refine (From.advance h1.stands).bind fun _ s2 h2 => From.sees ?_
        refine From.passing (h1.behind.goes h2) fun s3 h3 => From.sees ?_
        split
        · exact From.pure ⟨h3.stands, h1.inOrder (.nil h3.later)⟩
        · exact From.failHere
      · refine From.separated h1.behind fun s2 h2 => ?_
        refine (inOrder_parseArgs fuel h2).bind ?_
        rintro ⟨args, expand⟩ s3 ⟨h3, hargs⟩
        exact From.pure ⟨h3, h1.inOrder hargs⟩
termination_by structural fuel => fuel

theorem grown_parseTuple : ∀ (fuel : Nat) {back : List Char} {place : Nat} {s : State},
    Behind source back place s → From s (parseTuple fuel s.tok.span) (Grown source back place)
  | 0, _, _, _, _ => From.failHere
  | fuel + 1, back, place, s, hs => by
    rw [parseTuple]
    refine From.opening hs.stands fun s1 h1 => From.seesWord ?_
    split
    · exact grown_parseFor fuel false hs.stands.lies hs.le_start h1.behind
    · refine (inOrder_parseItems fuel h1.behind).bind fun items s2 ⟨h2, hitems⟩ => ?_
      refine From.closed h2 fun s3 h3 => From.pure ?_
      exact grown_enclosed hs.stands.lies hs.le_start h2 h3 hitems rfl
termination_by structural fuel => fuel

theorem inOrder_parseItems : ∀ (fuel : Nat) {back : List Char} {place : Nat} {s : State},
    Behind source back place s → From s (parseItems fuel) fun items s' => Stands source back s' ∧
      InOrder source place (Expr.treesOfAll items) s'.tok.writtenStart
  | 0, _, _, _, _ => From.failHere
  | fuel + 1, back, place, s, hs => by
    rw [parseItems]
    refine From.sees ?_
    split
    · exact From.pure ⟨hs.stands, .nil hs.later⟩
    · refine (grown_parseExpr fuel hs).bind fun item s1 h1 => From.current ?_
      refine From.separated h1.behind fun s2 h2 => ?_
      refine (inOrder_parseItems fuel h2).bind fun items s3 ⟨h3, hitems⟩ => ?_
      exact From.pure ⟨h3, h1.inOrder hitems⟩
termination_by structural fuel => fuel

theorem grown_parseObject : ∀ (fuel : Nat) {back : List Char} {place : Nat} {s : State},
    Behind source back place s → From s (parseObject fuel s.tok.span) (Grown source back place)
  | 0, _, _, _, _ => From.failHere
  | fuel + 1, back, place, s, hs => by
    rw [parseObject]
    refine From.get (From.modify ((From.advance (hs.stands.nested 0)).bind fun _ s1 h1 => ?_))
    have h1 := h1.of_nested.behind
    refine (From.passNewlines h1).bind fun _ s2 h2 => From.seesWord ?_
    refine From.choosing (fun _ => Behind source back s.tok.writtenStop)
      (fun comprehension s3 h3 => ?_) (fun _ => h2) fun _ hrest =>
        From.peek fun ahead _ _ => hrest _ s2 h2
    beta_reduce
    split
    · exact From.modify (grown_parseFor fuel true hs.stands.lies hs.le_start (h3.nested _))
    · refine (inOrder_parseEntries fuel h3).bind fun items s4 ⟨h4, hitems⟩ => ?_
      refine From.modify (From.current ?_)
      refine (From.advance (h4.nested _)).bind fun _ s5 h5 => From.pure ?_
      exact grown_enclosed hs.stands.lies hs.le_start h4 h5.of_nested hitems rfl
termination_by structural fuel => fuel

theorem inOrder_parseEntries : ∀ (fuel : Nat) {back : List Char} {place : Nat} {s : State},
    Behind source back place s → From s (parseEntries fuel) fun items s' =>
      Stands source back s' ∧
        InOrder source place (Expr.treesOfItems items) s'.tok.writtenStart
  | 0, _, _, _, _ => From.failHere
  | fuel + 1, back, place, s, hs => by
    rw [parseEntries]
    refine (From.passNewlines hs).bind fun _ s1 h1 => From.sees ?_
    split
    · exact From.pure ⟨h1.stands, .nil h1.later⟩
    · refine (inOrder_parseKey fuel h1).bind fun key s2 ⟨h2, hkey⟩ => From.current ?_
      split
      · refine (From.advance h2).bind fun _ s3 h3 => ?_
        refine (grown_parseExpr fuel (h2.behind.goes h3)).bind fun value s4 h4 => From.current ?_
        refine From.separated h4.behind fun s5 h5 => ?_
        refine (inOrder_parseEntries fuel h5).bind fun entries s6 ⟨h6, hentries⟩ => ?_
        exact From.pure ⟨h6, hkey.append (h4.inOrder hentries)⟩
      · exact From.failHere
termination_by structural fuel => fuel

theorem inOrder_parseKey : ∀ (fuel : Nat) {back : List Char} {place : Nat} {s : State},
    Behind source back place s → From s (parseKey fuel) fun key s' => Stands source back s' ∧
      InOrder source place [Expr.treeOfKey key] s'.tok.writtenStart
  | 0, _, _, _, _ => From.failHere
  | fuel + 1, back, place, s, hs => by
    rw [parseKey]
    refine From.current ?_
    refine From.choosing (fun _ => Eq s) ?_ (fun _ => rfl) fun _ hrest =>
      From.peek fun ahead _ _ => hrest _ s rfl
    rintro bare _ rfl
    beta_reduce
    split
    · refine (From.advance hs.stands).bind fun _ s1 h1 => From.pure ⟨h1.stands, ?_⟩
      exact .single hs.le_start (nested_leaf hs.stands.lies) h1.behind_span.later
    · refine (grown_parseExpr fuel hs).bind fun e s1 h1 => From.pure ⟨h1.stands, ?_⟩
      exact h1.inOrder (.nil h1.behind.later)
termination_by structural fuel => fuel

/-- The bracket that was opened is at a token before. -/
theorem grown_parseFor : ∀ (fuel : Nat) (object : Bool) {back : List Char} {place : Nat}
    {t : Token} {s : State}, t.span.Lies source → place ≤ t.span.start →
      Behind source back t.writtenStop s →
        From s (parseFor fuel t.span object) (Grown source back place)
  | 0, _, _, _, _, _, _, _, _ => From.failHere
  | fuel + 1, object, back, place, t, s, ht, hplace, hs => by
    rw [parseFor]
    refine (From.advance hs.stands).bind fun _ s1 h1 => ?_
    refine (From.expectName h1.stands _).bind fun first s2 ⟨_, h2⟩ => From.sees ?_
    have h2 := (hs.goes h1).goes h2
    refine From.choosing (fun _ => Behind source back t.writtenStop) (fun second s3 h3 => ?_)
      (fun _ => h2) fun _ hrest => (From.advance h2.stands).bind fun _ s3 h3 =>
        (From.expectName h3.stands _).bind fun name s4 ⟨_, h4⟩ =>
          hrest _ s4 ((h2.goes h3).goes h4)
    refine From.seesWord (From.guarded fun _ => ?_)
    refine (From.advance h3.stands).bind fun _ s4 h4 => ?_
    refine (grown_parseExpr fuel (h3.goes h4)).bind fun collection s5 h5 => ?_
    refine (From.expect h5.stands _ _).bind fun _ s6 ⟨_, h6⟩ => ?_
    have h6 := h5.behind.goes h6
    refine From.choosing (fun key s' => Stands source back s' ∧
      InOrder source collection.span.stop (Expr.treesOfOption key) s'.tok.writtenStart) ?_
      (fun _ => ⟨h6.stands, .nil h6.later⟩) fun _ hrest =>
        (grown_parseExpr fuel h6).bind fun e s7 h7 =>
          (From.expect h7.stands _ _).bind fun _ s8 ⟨_, h8⟩ =>
            hrest _ s8 ⟨h8.stands, h7.inOrder (.nil (h7.behind.goes h8).later)⟩
    rintro key s7 ⟨h7, hkey⟩
    refine (grown_parseExpr fuel h7.behind).bind fun value s8 h8 => ?_
    refine From.choosing (fun _ => Behind source back value.span.stop) (fun group s9 h9 => ?_)
      (fun _ => h8.behind) fun _ hrest => From.sees (hrest _ s8 h8.behind)
    refine From.passing h9 fun s10 h10 => From.seesWord ?_
    refine From.choosing (fun cond s' => Stands source back s' ∧
      InOrder source value.span.stop (Expr.treesOfOption cond) s'.tok.writtenStart) ?_
      (fun _ => ⟨h10.stands, .nil h10.later⟩) fun _ hrest =>
        (From.advance h10.stands).bind fun _ s11 h11 =>
          (grown_parseExpr fuel (h10.goes h11)).bind fun e s12 h12 =>
            hrest _ s12 ⟨h12.stands, h12.inOrder (.nil h12.behind.later)⟩
    rintro cond s11 ⟨h11, hcond⟩
    refine From.closing h11 _ _ fun s12 _ h12 => From.pure ?_
    exact grown_enclosed ht hplace h11 h12
      (h5.inOrder (hkey.append (h8.inOrder hcond))) rfl
termination_by structural fuel => fuel

theorem inOrder_parseTemplate : ∀ (fuel : Nat) {more : List Char} {span : Span} {cs : List Char}
    {offset : Nat} {s : State}, span.source = source → Within source more cs offset →
      From s (parseTemplate fuel span cs offset) fun parts s' => s' = s ∧
        InOrder source offset (Expr.treesOfTemplate parts) (offset + byteLength cs)
  | 0, _, _, _, _, _, _, _ => From.failHere
  | fuel + 1, more, span, cs, offset, s, hspan, hwithin => by
    rw [parseTemplate]
    refine From.lift fun chunk hchunk => ?_
    extract_lets head
    have hhead (parts : List TemplatePart) :
        Expr.treesOfTemplate (head ++ parts) = Expr.treesOfTemplate parts := by
      unfold head
      split
      · rfl
      · rfl
    clear_value head
    split
    · refine From.pure ⟨rfl, ?_⟩
      rw [← List.append_nil head, hhead]
      exact .nil (Nat.le_add_right _ _)
    · next rest place hrest =>
      obtain ⟨passed, hmarks⟩ := marks_of_readChunk hchunk hrest
      have hplace : offset ≤ place := hmarks.place_eq ▸ Nat.le_add_right _ _
      refine From.get (From.lift fun inner hinner => From.set ?_)
      rw [hspan] at hinner
      have h1 := (behind_start (hwithin.lexed hmarks) hinner).of_le hplace
      refine (grown_parseExpr fuel h1).bind fun e s1 h2 => From.sees (From.guarded fun _ => ?_)
      refine From.get (From.set ?_)
      -- The template goes on behind the brace, up to the same quote.
      have hrest := h2.stands.within
      obtain ⟨before, hread⟩ := h2.stands.read
      have hlater : e.span.stop ≤ s1.cursor.offset := by
        rw [hread.offset_eq]
        exact Nat.le_trans h2.behind.later h2.stands.start_le_stop
      have hsame : s1.cursor.offset + byteLength s1.cursor.rest = offset + byteLength cs := by
        have hsize := hwithin.size_eq
        rw [hrest.size_eq] at hsize
        omega
      refine (inOrder_parseTemplate fuel hspan hrest).bind ?_
      rintro tail _ ⟨rfl, htail⟩
      rw [hsame] at htail
      refine From.pure ⟨rfl, ?_⟩
      rw [hhead]
      exact h2.inOrder (htail.of_le hlater)
termination_by structural fuel => fuel

end

end Parser

end StaticConfig
