import Mathlib.Data.List.DropRight
import Mathlib.Data.String.Basic
import StaticConfig.Proofs.Reading.Layout
import StaticConfig.Proofs.Reading.Placed

/-!
Lines and columns of a text. Going on over characters counts the lines before a place and the
columns from the start of its line, and the table of lines that a source has gives the same for all
places but the two at the end of a text that ends in a line break.
-/
namespace StaticConfig

/-- The characters of the last line. -/
def lastLine (cs : List Char) : List Char := cs.rtakeWhile (· ≠ '\n')

theorem lastLine_append_newline (cs : List Char) : lastLine (cs ++ ['\n']) = [] :=
  List.rtakeWhile_concat_neg _ _ _ (by decide)

theorem lastLine_append {c : Char} (hc : c ≠ '\n') (cs : List Char) :
    lastLine (cs ++ [c]) = lastLine cs ++ [c] :=
  List.rtakeWhile_concat_pos _ _ _ (decide_eq_true hc)

theorem lastLine_eq_nil_iff {cs : List Char} :
    lastLine cs = [] ↔ cs = [] ∨ cs.getLast? = some '\n' := by
  induction cs using List.reverseRecOn with
  | nil => simp [lastLine]
  | append_singleton cs c ih =>
    by_cases hc : c = '\n'
    · simp [hc, lastLine_append_newline]
    · simp [hc, lastLine_append hc]

/-- The characters of the lines before the last one. -/
def endedLines (cs : List Char) : List Char := cs.rdropWhile (· ≠ '\n')

theorem endedLines_append_newline (cs : List Char) : endedLines (cs ++ ['\n']) = cs ++ ['\n'] :=
  List.rdropWhile_concat_neg _ _ _ (by decide)

theorem endedLines_append {c : Char} (hc : c ≠ '\n') (cs : List Char) :
    endedLines (cs ++ [c]) = endedLines cs :=
  List.rdropWhile_concat_pos _ _ _ (decide_eq_true hc)

theorem endedLines_append_lastLine (cs : List Char) : endedLines cs ++ lastLine cs = cs :=
  List.rdropWhile_append_rtakeWhile

namespace Lexer

theorem moved_append (place : Nat × Nat) (as bs : List Char) :
    moved place (as ++ bs) = moved (moved place as) bs :=
  List.foldl_append

theorem moved_cons {c : Char} (hc : c ≠ '\n') (line col : Nat) (cs : List Char) :
    moved (line, col) (c :: cs) = moved (line, col + 1) cs := by
  rw [moved, List.foldl_cons, if_neg hc]
  rfl

theorem moved_line (place : Nat × Nat) (cs : List Char) :
    (moved place cs).1 = place.1 + cs.count '\n' := by
  induction cs generalizing place with
  | nil => rfl
  | cons c cs ih =>
    rw [moved, List.foldl_cons]
    refine (ih _).trans ?_
    by_cases hc : c = '\n'
    · rw [if_pos hc, hc, List.count_cons_self]
      omega
    · rw [if_neg hc, List.count_cons_of_ne hc]

theorem moved_of_not_mem {cs : List Char} (h : '\n' ∉ cs) (line col : Nat) :
    moved (line, col) cs = (line, col + cs.length) := by
  induction cs generalizing col with
  | nil => rfl
  | cons c cs ih =>
    obtain ⟨hc, hcs⟩ := not_or.1 (mt List.mem_cons.2 h)
    rw [moved_cons (Ne.symm hc), ih hcs, List.length_cons]
    exact congrArg (line, ·) (by omega)

/-- From the start of a text the characters of its last line are counted. -/
theorem moved_start (cs : List Char) :
    moved (1, 1) cs = (1 + cs.count '\n', 1 + (lastLine cs).length) := by
  induction cs using List.reverseRecOn with
  | nil => rfl
  | append_singleton cs c ih =>
    rw [moved_append, ih]
    by_cases hc : c = '\n'
    · rw [hc, lastLine_append_newline, List.count_append]
      rfl
    · rw [lastLine_append hc, moved_cons hc, List.count_append, List.count_singleton,
        beq_false_of_ne hc, List.length_append]
      rfl

end Lexer

namespace Source

open Lexer (moved moved_start)

theorem size_eq (source : Source) : source.size = byteLength source.text.toList := by
  have hlength (cs : List Char) : String.utf8Len cs = byteLength cs := by
    induction cs with
    | nil => rfl
    | cons c cs ih => rw [String.utf8Len_cons, byteLength_cons, ih, Nat.add_comm]
  rw [size, ← String.utf8Len_toList, hlength]

/-! The table of lines. -/

theorem closedLines_append (as bs : List Char) (prior : Char) (start offset : Nat) :
    ∃ prior', closedLines prior start offset (as ++ bs) =
      ((closedLines prior start offset as).1 ++ (closedLines prior'
          (closedLines prior start offset as).2 (offset + byteLength as) bs).1,
        (closedLines prior' (closedLines prior start offset as).2
          (offset + byteLength as) bs).2) := by
  induction as generalizing prior start offset with
  | nil => exact ⟨prior, rfl⟩
  | cons c as ih =>
    rw [List.cons_append, closedLines, closedLines, byteLength_cons, ← Nat.add_assoc]
    by_cases hc : c = '\n'
    · obtain ⟨prior', h⟩ := ih c (offset + 1) (offset + 1)
      have hsize : c.utf8Size = 1 := by rw [hc]; rfl
      simp only [if_pos hc, hsize, h]
      exact ⟨prior', rfl⟩
    · obtain ⟨prior', h⟩ := ih c start (offset + c.utf8Size)
      simp only [if_neg hc, h]
      exact ⟨prior', rfl⟩

/-- The lines that end in a text from the start: as many as it has ends of lines, and the line after
them starts behind the last of these. -/
theorem closedLines_start (cs : List Char) :
    (closedLines ' ' 0 0 cs).1.length = cs.count '\n' ∧
      (closedLines ' ' 0 0 cs).2 = byteLength (endedLines cs) ∧
        ∀ l ∈ (closedLines ' ' 0 0 cs).1, l.1 ≤ byteLength cs := by
  induction cs using List.reverseRecOn with
  | nil => exact ⟨rfl, rfl, nofun⟩
  | append_singleton cs c ih =>
    obtain ⟨hlength, hstart, hbefore⟩ := ih
    obtain ⟨prior, h⟩ := closedLines_append cs [c] ' ' 0 0
    have hsplit := byteLength_append (endedLines cs) (lastLine cs)
    rw [endedLines_append_lastLine] at hsplit
    have hgrows := byteLength_append cs [c]
    rw [h, Nat.zero_add, List.count_append, closedLines]
    by_cases hc : c = '\n'
    · subst hc
      rw [if_pos rfl, endedLines_append_newline]
      refine ⟨?_, ?_, List.forall_mem_append.2 ⟨fun l hl => ?_, ?_⟩⟩
      · rw [List.length_append, hlength]
        rfl
      · rw [hgrows]
        rfl
      · have hl := hbefore l hl
        omega
      · refine List.forall_mem_singleton.2 ?_
        dsimp only
        omega
    · rw [if_neg hc, endedLines_append hc, closedLines, List.append_nil, List.count_singleton,
        beq_false_of_ne hc]
      refine ⟨hlength, hstart, fun l hl => ?_⟩
      have hl := hbefore l hl
      omega

theorem le_of_closedLines {cs : List Char} {prior : Char} {start offset : Nat}
    (h : start ≤ offset) : (∀ l ∈ (closedLines prior start offset cs).1, start ≤ l.1) ∧
      start ≤ (closedLines prior start offset cs).2 := by
  induction cs generalizing prior start offset with
  | nil => exact ⟨nofun, Nat.le_refl _⟩
  | cons c cs ih =>
    rw [closedLines]
    split
    · obtain ⟨hlines, hlast⟩ := @ih c (offset + 1) (offset + 1) (Nat.le_refl _)
      refine ⟨List.forall_mem_cons.2 ⟨Nat.le_refl _, fun l hl => ?_⟩, ?_⟩
      · have hl := hlines l hl
        omega
      · dsimp only
        omega
    · exact ih (by omega)

/-- Behind a place the current line ends first, if a line ends there at all. -/
theorem closedLines_after {cs : List Char} {prior : Char} {start offset : Nat}
    (h : start ≤ offset) :
    closedLines prior start offset cs = ([], start) ∧ '\n' ∉ cs ∨
      '\n' ∈ cs ∧ ∃ stop more last, closedLines prior start offset cs =
        ((start, stop) :: more, last) ∧ offset < last ∧ ∀ l ∈ more, offset < l.1 := by
  induction cs generalizing prior offset with
  | nil => exact .inl ⟨rfl, List.not_mem_nil⟩
  | cons c cs ih =>
    rw [closedLines]
    by_cases hc : c = '\n'
    · rw [if_pos hc, hc]
      obtain ⟨hlines, hlast⟩ :=
        @le_of_closedLines cs '\n' (offset + 1) (offset + 1) (Nat.le_refl _)
      exact .inr ⟨List.mem_cons_self, _, _, _, rfl, hlast, hlines⟩
    · rw [if_neg hc]
      have hsize := c.utf8Size_pos
      rcases @ih c (offset + c.utf8Size) (by omega) with
        ⟨hnone, hcs⟩ | ⟨hcs, stop, more, last, hsome, hlast, hmore⟩
      · exact .inl ⟨hnone, List.not_mem_cons_of_ne_of_not_mem (Ne.symm hc) hcs⟩
      · refine .inr ⟨List.mem_cons_of_mem _ hcs, stop, more, last, hsome, by omega, ?_⟩
        intro l hl
        have hl := hmore l hl
        omega

/-- The place between the two parts is not behind the line break that a text ends in, nor right
before it. -/
structure Inside (front back : List Char) : Prop where
  before : back ≠ ['\n']
  behind : back = [] → front.getLast? ≠ some '\n'

/-- A place that is not behind everything but the ends of lines. -/
theorem Inside.of_ne {front rest back : List Char} {c : Char} (hc : c ≠ '\n') :
    Inside front (rest ++ c :: back) := by
  refine ⟨fun h => hc ?_, fun h => ?_⟩
  · have hmem : c ∈ ['\n'] := h ▸ List.mem_append_right rest List.mem_cons_self
    exact List.mem_singleton.1 hmem
  · exact absurd (List.append_eq_nil_iff.1 h).2 (List.cons_ne_nil c back)

/-- Where the end of a line stands behind such a place, it does not stand there alone. -/
theorem Inside.two_le_byteLength {front back : List Char} (h : Inside front back)
    (hmem : '\n' ∈ back) : 2 ≤ byteLength back := by
  obtain ⟨as, bs, rfl⟩ := List.append_of_mem hmem
  have hnewline : ('\n' : Char).utf8Size = 1 := rfl
  rw [byteLength_append, byteLength_cons, hnewline]
  have hother : as ≠ [] ∨ bs ≠ [] := by
    by_contra hboth
    obtain ⟨has, hbs⟩ := not_or.1 hboth
    rw [not_not.1 has, not_not.1 hbs] at h
    exact h.before rfl
  rcases hother with hother | hother
  · have hpos := Lexer.byteLength_pos hother
    omega
  · have hpos := Lexer.byteLength_pos hother
    omega

/-- The lines of a source up to a place that is not at its end. -/
theorem lines_eq {source : Source} {front back : List Char} (hinside : Inside front back)
    (h : source.text.toList = front ++ back) :
    ∃ stop more, source.lines = (closedLines ' ' 0 0 front).1 ++
      (byteLength (endedLines front), stop) :: more ∧ ∀ l ∈ more, byteLength front < l.1 := by
  obtain ⟨-, hstart, -⟩ := closedLines_start front
  obtain ⟨prior, hclosed⟩ := closedLines_append front back ' ' 0 0
  have hsplit := byteLength_append (endedLines front) (lastLine front)
  rw [endedLines_append_lastLine] at hsplit
  have hsize := source.size_eq
  rw [h, byteLength_append] at hsize
  rw [hstart, Nat.zero_add] at hclosed
  rw [lines, h, hclosed]
  dsimp only
  -- The current line is the last one, or it is the first of those that end behind the place.
  rcases @closedLines_after back prior (byteLength (endedLines front))
    (byteLength front) (by omega) with ⟨hnone, -⟩ | ⟨hmem, stop, more, last, hsome, hlast, hmore⟩
  · rw [hnone, List.append_nil]
    dsimp only
    split
    · exact ⟨_, [], rfl, nofun⟩
    · next hlast =>
      have hback : back = [] := by
        by_contra hne
        have hpos := Lexer.byteLength_pos hne
        omega
      by_cases hfront : front = []
      · have hempty : source.size = 0 := by
          rw [hsize, hback, hfront]
          rfl
        rw [if_pos hempty, hfront]
        exact ⟨0, [], rfl, nofun⟩
      · have hline : lastLine front ≠ [] := fun hnone =>
          (lastLine_eq_nil_iff.1 hnone).elim hfront (hinside.behind hback)
        have hpos := Lexer.byteLength_pos hline
        omega
  · have hlonger := hinside.two_le_byteLength hmem
    rw [hsome, List.append_assoc, List.cons_append]
    refine ⟨stop, _, rfl, List.forall_mem_append.2 ⟨hmore, ?_⟩⟩
    dsimp only
    split
    · exact List.forall_mem_singleton.2 hlast
    · rw [if_neg (by omega)]
      refine List.forall_mem_singleton.2 ?_
      dsimp only
      omega

/-- The position of a place that is not at the end of the source is that to which one comes along
the text before. -/
theorem position_eq_moved {source : Source} {front back : List Char} (hinside : Inside front back)
    (h : source.text.toList = front ++ back) :
    source.position (byteLength front) = moved (1, 1) front := by
  obtain ⟨hlength, -, hbefore⟩ := closedLines_start front
  obtain ⟨stop, more, hlines, hmore⟩ := lines_eq hinside h
  have hsplit := byteLength_append (endedLines front) (lastLine front)
  rw [endedLines_append_lastLine] at hsplit
  have hfirst : byteLength (endedLines front) ≤ byteLength front := by omega
  have hlater : more.takeWhile (fun l => decide (l.1 ≤ byteLength front)) = [] := by
    rw [List.takeWhile_eq_nil_iff]
    intro hne hle
    exact absurd (of_decide_eq_true hle) (Nat.not_le_of_lt (hmore _ (List.getElem_mem hne)))
  have hstarted : source.lines.takeWhile (fun l => decide (l.1 ≤ byteLength front)) =
      (closedLines ' ' 0 0 front).1 ++ [(byteLength (endedLines front), stop)] := by
    rw [hlines, List.takeWhile_append_of_pos (fun l hl => decide_eq_true (hbefore l hl)),
      List.takeWhile_cons, if_pos (decide_eq_true hfirst), hlater]
  have hindex : max 1 (source.lines.takeWhile fun l => decide (l.1 ≤ byteLength front)).length - 1 =
      front.count '\n' := by
    rw [hstarted, List.length_append, hlength, List.length_singleton]
    omega
  have hstart : source.lines[front.count '\n']?.getD (0, 0) =
      (byteLength (endedLines front), stop) := by
    rw [hlines, ← hlength, List.getElem?_append_right (Nat.le_refl _), Nat.sub_self]
    rfl
  have hslice : source.slice (byteLength (endedLines front)) (byteLength front) =
      lastLine front := by
    refine Segment.slice_eq ⟨endedLines front, back, ?_, rfl, ?_⟩
    · rw [endedLines_append_lastLine, h]
    · rw [endedLines_append_lastLine]
  rw [position, hindex, hstart, hslice, moved_start, Nat.add_comm 1, Nat.add_comm 1]

end Source

end StaticConfig

/-!
When the lines and columns of ranges are right. The lexer counts along as it goes, and misses only
the ends of lines inside of quoted templates, so what it reads after such a template has the wrong
line, and everything else is right.
-/
namespace StaticConfig

open StaticConfig.Lexer (Read moved)

/-- The range starts at the line and the column that its first byte has: one more than the ends of
lines before it, and one more than the characters before it in its line. -/
structure Span.Right (span : Span) : Prop where
  line : span.line = 1 + (span.source.slice 0 span.start).count '\n'
  col : span.col = 1 + (lastLine (span.source.slice 0 span.start)).length

theorem Span.right_iff {span : Span} {front rest : List Char}
    (h : span.source.text.toList = front ++ rest) (hstart : span.start = byteLength front) :
    span.Right ↔ moved (1, 1) front = (span.line, span.col) := by
  have hslice : span.source.slice 0 span.start = front :=
    Source.Segment.slice_eq ⟨[], rest, h, rfl, hstart⟩
  rw [Lexer.moved_start, Prod.mk.injEq, ← hslice]
  exact ⟨fun hright => ⟨hright.line.symm, hright.col.symm⟩, fun ⟨hline, hcol⟩ =>
    ⟨hline.symm, hcol.symm⟩⟩

theorem Span.SameStart.right_iff {a b : Span} (h : a.SameStart b) : a.Right ↔ b.Right := by
  obtain ⟨hsource, hline, hcol, hstart⟩ := h
  constructor
  · rintro ⟨hline', hcol'⟩
    rw [hsource, hstart] at hline' hcol'
    exact ⟨hline.symm.trans hline', hcol.symm.trans hcol'⟩
  · rintro ⟨hline', hcol'⟩
    rw [← hsource, ← hstart] at hline' hcol'
    exact ⟨hline.trans hline', hcol.trans hcol'⟩

/-- The ends of lines inside of the token, if it is a quoted template. -/
def Token.hiddenLines (t : Token) : Nat :=
  if t.kind = .string then t.text.toList.count '\n' else 0

namespace Lexer

variable {source : Source} {back front passed more : List Char} {before : List Token}
  {pos after : Cursor} {t : Token} {hidden : Nat}

/-- The cursor stands in the source behind `front`, and has counted its lines and columns, but for
some lines that are hidden. Behind a comment to the end of a line the columns are not counted up to
this end. -/
structure Counted (source : Source) (back front : List Char) (pos : Cursor) (hidden : Nat) :
    Prop where
  split : source.text.toList = front ++ (pos.rest ++ back)
  offset_eq : pos.offset = byteLength front
  line : (moved (1, 1) front).1 = pos.line + hidden
  col : hidden = 0 → ¬LineEnds pos.rest → (moved (1, 1) front).2 = pos.col

theorem Counted.moved_eq (h : Counted source back front pos 0) (hgoes : ¬LineEnds pos.rest) :
    moved (1, 1) front = (pos.line, pos.col) :=
  Prod.ext h.line (h.col rfl hgoes)

/-- A range that starts some characters behind the cursor is right exactly if no lines are
hidden. -/
theorem Counted.right_iff {span : Span} (h : Counted source back front pos hidden)
    (hgoes : ¬LineEnds pos.rest) (hsource : span.source = source) (hmore : more <+: pos.rest)
    (hinside : '\n' ∉ more) (hstart : span.start = byteLength (front ++ more))
    (hline : span.line = pos.line) (hcol : 1 ≤ pos.col → span.col = pos.col + more.length) :
    span.Right ↔ hidden = 0 := by
  obtain ⟨rest, hrest⟩ := hmore
  have hsplit : span.source.text.toList = (front ++ more) ++ (rest ++ back) := by
    rw [hsource, h.split, ← hrest]
    simp
  rw [Span.right_iff hsplit hstart, hline, moved_append]
  constructor
  · intro hmoved
    have hlines := congrArg Prod.fst hmoved
    rw [moved_line, h.line, List.count_eq_zero_of_not_mem hinside] at hlines
    dsimp only at hlines
    omega
  · rintro rfl
    have hmoved := h.moved_eq hgoes
    have hpos : 1 ≤ pos.col := by
      have hcols := congrArg Prod.snd hmoved
      rw [moved_start] at hcols
      dsimp only at hcols
      omega
    rw [hmoved, moved_of_not_mem hinside, hcol hpos]

/-- A gap is counted, and its columns unless the line ends behind it. -/
theorem Gapped.moved_eq (h : Gapped pos passed after) (htab : '\t' ∉ passed) :
    (moved (pos.line, pos.col) passed).1 = after.line ∧
      (¬LineEnds after.rest → (moved (pos.line, pos.col) passed).2 = after.col) := by
  induction h with
  | stop => exact ⟨rfl, fun _ => rfl⟩
  | @blank c cs passed offset line col after hc hreturn hgapped ih =>
    obtain ⟨hne, htab⟩ := not_or.1 (mt List.mem_cons.2 htab)
    obtain ⟨hline, hcol⟩ := ih htab
    simp only [blanks, List.mem_cons, List.not_mem_nil, or_false] at hc
    rcases hc with rfl | rfl | rfl
    · rw [moved_cons (by decide)]
      exact ⟨hline, hcol⟩
    · exact absurd rfl hne
    · -- A carriage return stands before the end of a line, where the gap ends.
      have hends : LineEnds cs := .inl (hreturn rfl)
      obtain ⟨rfl, rfl⟩ := hgapped.of_lineEnds hends
      exact ⟨rfl, fun hgoes => absurd hends hgoes⟩
  | line _ hnewline _ hends =>
    rw [moved_of_not_mem hnewline]
    exact ⟨rfl, fun hgoes => absurd hends hgoes⟩
  | @block body rest passed offset line col after _ _ hgapped ih =>
    obtain ⟨hline, hcol⟩ := ih fun hmem => htab (List.mem_append_right _ hmem)
    have hopening : moved (line, col) ('/' :: '*' :: body) = moved (line, col + 2) body := by
      rw [moved_cons (by decide), moved_cons (by decide)]
    have hclosing (place : Nat × Nat) : moved place ['*', '/'] = (place.1, place.2 + 2) := rfl
    rw [moved_append, moved_append, hopening, hclosing]
    exact ⟨hline, hcol⟩

theorem Counted.gapped (h : Counted source back front pos hidden)
    (hgapped : Gapped pos passed after) (htab : '\t' ∉ source.text.toList) :
    Counted source back (front ++ passed) after hidden := by
  obtain ⟨hrest, -, hoffset⟩ := hgapped.passes
  have hsplit : source.text.toList = (front ++ passed) ++ (after.rest ++ back) := by
    rw [h.split, hrest]
    simp
  have hpassed : '\t' ∉ passed := fun hmem => htab (by rw [hsplit]; simp [hmem])
  obtain ⟨hline, hcol⟩ := hgapped.moved_eq hpassed
  refine ⟨hsplit, ?_, ?_, ?_⟩
  · rw [hoffset, h.offset_eq, byteLength_append]
  · rw [moved_line] at hline
    rw [moved_append, moved_line, h.line, ← hline]
    exact Nat.add_right_comm _ _ _
  · rintro rfl hgoes
    have hbefore : ¬LineEnds pos.rest := by
      intro hends
      obtain ⟨-, rfl⟩ := hgapped.of_lineEnds hends
      exact hgoes hends
    rw [moved_append, h.moved_eq hbefore]
    exact hcol hgoes

/-- A token is counted, but for the ends of lines inside of it. Where a line ends the columns start
again, whatever they have been. -/
theorem Reading.counts (h : Reading source pos t after) :
    pos.line + t.writtenText.count '\n' = after.line + t.hiddenLines ∧
      ∀ place : Nat × Nat, (¬LineEnds pos.rest → place.2 = pos.col) → t.hiddenLines = 0 →
        ¬LineEnds after.rest → (moved place t.writtenText).2 = after.col := by
  have hsolid := h.not_lineEnds
  cases h with
  | @bare kind cs rest hstring hnewline _ _ hinside hends _ =>
    have htext : (tokenOf source pos kind cs rest).1.writtenText = cs :=
      (if_neg hstring).trans String.toList_ofList
    have hnone : (tokenOf source pos kind cs rest).1.hiddenLines = 0 := if_neg hstring
    rw [htext, hnone, List.count_eq_zero_of_not_mem hinside]
    refine ⟨rfl, fun place hplace _ hgoes => ?_⟩
    have hkind : kind ≠ .eof := fun heof => hgoes (.inr (hends heof).2)
    have hcol := hplace (hsolid ⟨hnewline, hkind⟩)
    rw [moved_of_not_mem hinside, hcol]
    rfl
  | newline _ =>
    rw [Token.writtenText_newline rfl rfl]
    exact ⟨rfl, fun _ _ _ _ => rfl⟩
  | @quoted inner rest _ _ _ =>
    have hhidden : Token.hiddenLines ⟨.string, String.ofList inner, ⟨source, pos.line, pos.col + 1,
        pos.offset + 1, pos.offset + 1 + byteLength inner⟩⟩ = inner.count '\n' := by
      rw [Token.hiddenLines, if_pos rfl, String.toList_ofList]
    rw [hhidden, Token.writtenText, if_pos rfl, String.toList_ofList]
    constructor
    · rw [List.cons_append, List.count_cons_of_ne (by decide), List.count_append]
      rfl
    · intro place hplace hnone _
      have hstring : TokenKind.string ≠ .newline ∧ TokenKind.string ≠ .eof := by decide
      have hcol := hplace (hsolid hstring)
      have hinside : '\n' ∉ '"' :: inner ++ ['"'] := by
        simpa using List.count_eq_zero.1 hnone
      rw [moved_of_not_mem hinside, hcol, List.length_append, List.length_cons]
      rfl

theorem Counted.reading (h : Counted source back front pos hidden)
    (hreading : Reading source pos t after) :
    Counted source back (front ++ t.writtenText) after (hidden + t.hiddenLines) := by
  obtain ⟨⟨hrest, -, hoffset⟩, -⟩ := hreading.written
  obtain ⟨hlines, hcols⟩ := hreading.counts
  refine ⟨?_, ?_, ?_, fun hnone hgoes => ?_⟩
  · rw [h.split, hrest]
    simp
  · rw [hoffset, h.offset_eq, byteLength_append]
  · rw [moved_append, moved_line, h.line]
    omega
  · obtain ⟨hhidden, hnone⟩ := Nat.add_eq_zero_iff.1 hnone
    rw [moved_append]
    exact hcols _ (h.col hhidden) hnone hgoes

/-- A lexer of the source has counted the lines and columns up to where it has come, but for the
lines that are hidden in the tokens it has read. -/
theorem Lexed.counted (htab : '\t' ∉ source.text.toList) (h : Lexed source back before pos) :
    ∃ front hidden, Counted source back front pos hidden ∧
      (hidden = 0 ↔ ∀ u ∈ before, u.hiddenLines = 0) := by
  induction h with
  | whole => exact ⟨[], 0, ⟨(List.append_nil _).symm, rfl, rfl, fun _ _ => rfl⟩, by simp⟩
  | inside hlexed hnext hstring htext hmark =>
    obtain ⟨front, hsplit, hoffset⟩ := (hlexed.inside hnext hstring htext hmark).lies
    rw [List.append_assoc] at hsplit
    have hposition := Source.position_eq_moved (.of_ne (by decide)) hsplit
    rw [← hoffset] at hposition
    refine ⟨front, 0, ⟨hsplit, hoffset, ?_, fun _ _ => ?_⟩, by simp⟩
    · rw [← hposition]
      rfl
    · rw [← hposition]
  | @next back before t pos after _ hnext ih =>
    obtain ⟨front, hidden, hcounted, hnone⟩ := ih
    obtain ⟨gap, middle, hgapped, hreading⟩ := reading_of_next hnext
    refine ⟨_, _, (hcounted.gapped hgapped htab).reading hreading, ?_⟩
    rw [Nat.add_eq_zero_iff, List.forall_mem_append, List.forall_mem_singleton, hnone]

/-- The place of a token is right exactly if no lines are hidden in those that have been read
before, and so is that behind an opening quote. -/
theorem Read.right_iff (htab : '\t' ∉ source.text.toList) (h : Read source back before t after)
    (ht : t.Solid) : (t.outer.Right ↔ ∀ u ∈ before, u.hiddenLines = 0) ∧
      (t.span.Right ↔ ∀ u ∈ before, u.hiddenLines = 0) := by
  obtain ⟨pos, hlexed, hnext⟩ := h
  obtain ⟨front, hidden, hcounted, hnone⟩ := hlexed.counted htab
  obtain ⟨gap, middle, hgapped, hreading⟩ := reading_of_next hnext
  have hmiddle := hcounted.gapped hgapped htab
  have hgoes := hreading.not_lineEnds ht
  have hoffset := hmiddle.offset_eq
  rw [← hnone]
  cases hreading with
  | @bare kind cs rest hstring =>
    have hspan : (tokenOf source middle kind cs rest).1.span.Right ↔ hidden = 0 := by
      refine hmiddle.right_iff hgoes rfl List.nil_prefix List.not_mem_nil ?_ rfl fun _ => rfl
      rw [List.append_nil]
      exact hoffset
    rw [Token.outer_of_ne hstring]
    exact ⟨hspan, hspan⟩
  | newline => exact absurd rfl ht.1
  | @quoted inner rest hsplit =>
    have hquote : ['"'] <+: middle.rest := ⟨inner ++ '"' :: rest, hsplit.symm⟩
    constructor
    · refine hmiddle.right_iff hgoes rfl List.nil_prefix List.not_mem_nil ?_ rfl fun hpos => ?_
      · rw [List.append_nil]
        exact hoffset
      · change max (middle.col + 1) 2 - 1 = middle.col
        omega
    · refine hmiddle.right_iff hgoes rfl hquote (by decide) ?_ rfl fun _ => rfl
      rw [byteLength_append, ← hoffset]
      rfl

/-- The end of a line inside of a quoted template has a backslash before it. -/
theorem Reading.escaped (h : Reading source pos t after) (ht : t.kind = .string)
    (hline : '\n' ∈ t.text.toList) : ['\\', '\n'] <:+: pos.rest := by
  cases h with
  | bare hstring => exact absurd ht hstring
  | newline => cases ht
  | @quoted inner rest hsplit _ hescaped =>
    rw [String.toList_ofList] at hline
    obtain ⟨front, more, hinner⟩ := hescaped hline
    refine ⟨'"' :: front, more ++ '"' :: rest, ?_⟩
    rw [hsplit, ← hinner]
    simp

theorem Lexed.escaped (h : Lexed source back before pos) {u : Token} (hu : u ∈ before)
    (hstring : u.kind = .string) (hline : '\n' ∈ u.text.toList) :
    ['\\', '\n'] <:+: source.text.toList := by
  induction h with
  | whole => cases hu
  | inside => cases hu
  | next hlexed hnext ih =>
    rcases List.mem_append.1 hu with hu | hu
    · exact ih hu
    · cases List.mem_singleton.1 hu
      obtain ⟨gap, middle, hgapped, hreading⟩ := reading_of_next hnext
      obtain ⟨front, hsplit, -⟩ := (hlexed.lies.passes hgapped.passes).1
      have hmiddle : middle.rest <:+: source.text.toList := ⟨front, _, hsplit.symm⟩
      exact (hreading.escaped hstring hline).trans hmiddle

end Lexer

namespace Span.StartsAfter

variable {source : Source} {back : List Char} {before : List Token} {span : Span}

/-- A range that starts at a token is right exactly if none of the templates that the lexer has read
before goes over the end of a line. -/
theorem right_iff (htab : '\t' ∉ source.text.toList) (h : span.StartsAfter source back before) :
    span.Right ↔ ∀ u ∈ before, u.kind = .string → '\n' ∉ u.text.toList := by
  obtain ⟨t, after, hread, hsolid, hstart⟩ := h
  obtain ⟨houter, hinner⟩ := hread.right_iff htab hsolid
  have hnone (u : Token) : u.hiddenLines = 0 ↔ (u.kind = .string → '\n' ∉ u.text.toList) := by
    unfold Token.hiddenLines
    split
    · next hstring => rw [List.count_eq_zero, imp_iff_right hstring]
    · next hstring => exact ⟨fun _ h => absurd h hstring, fun _ => rfl⟩
  have hall : (∀ u ∈ before, u.hiddenLines = 0) ↔
      ∀ u ∈ before, u.kind = .string → '\n' ∉ u.text.toList :=
    forall₂_congr fun u _ => hnone u
  rw [← hall]
  rcases hstart with hstart | hstart
  · rw [hstart.right_iff, houter]
  · rw [hstart.right_iff, hinner]

/-- Without a backslash before the end of a line every range is right. -/
theorem right (htab : '\t' ∉ source.text.toList)
    (hescape : ¬['\\', '\n'] <:+: source.text.toList)
    (h : span.StartsAfter source back before) : span.Right := by
  refine (h.right_iff htab).2 fun u hu hstring hline => ?_
  obtain ⟨t, after, ⟨pos, hlexed, -⟩, -⟩ := h
  exact hescape (hlexed.escaped hu hstring hline)

theorem source_eq (h : span.StartsAfter source back before) : span.source = source := by
  obtain ⟨t, after, hread, -, hstart⟩ := h
  rcases hstart with hstart | hstart
  · rw [hstart.source, ← hread.source_eq]
    unfold Token.outer
    split
    · rfl
    · rfl
  · exact hstart.source.trans hread.source_eq

end Span.StartsAfter

end StaticConfig
