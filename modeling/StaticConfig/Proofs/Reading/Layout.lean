import StaticConfig.Proofs.Reading.Lossless

/-!
Where tokens stand in a source. A lexer begins at the start of the source, or in a quoted template
where an interpolation begins, and reads token after token; between two of them there are only
blanks, comments and ends of lines.
-/
namespace StaticConfig

open Text.Quoted (Plain)

/-- Texts divided at the same byte are divided into the same parts. -/
theorem append_inj_of_byteLength {as bs cs ds : List Char} (h : as ++ bs = cs ++ ds)
    (hlength : byteLength as = byteLength cs) : as = cs ∧ bs = ds := by
  have hnone (more : List Char) (hmore : byteLength more = 0) : more = [] := by
    by_contra hne
    have hpos := Lexer.byteLength_pos hne
    omega
  rcases List.append_eq_append_iff.1 h with ⟨more, hcs, hbs⟩ | ⟨more, has, hds⟩
  · rw [hcs, byteLength_append] at hlength
    rw [hnone more (by omega)] at hcs hbs
    exact ⟨by rw [hcs, List.append_nil], hbs⟩
  · rw [has, byteLength_append] at hlength
    rw [hnone more (by omega)] at has hds
    exact ⟨by rw [has, List.append_nil], hds.symm⟩

theorem dropBytes_append (as bs : List Char) : dropBytes (byteLength as) (as ++ bs) = bs := by
  induction as with
  | nil => cases bs <;> rfl
  | cons a as ih =>
    have hpos := a.utf8Size_pos
    have hlength : a.utf8Size + byteLength as - a.utf8Size = byteLength as := by omega
    rw [List.cons_append, byteLength_cons, dropBytes, if_neg (by omega), hlength, ih]

namespace Source

/-- The characters that stand in the source between two byte offsets. -/
def Segment (source : Source) (start stop : Nat) (cs : List Char) : Prop :=
  ∃ front back, source.text.toList = front ++ cs ++ back ∧ start = byteLength front ∧
    stop = byteLength (front ++ cs)

namespace Segment

variable {source : Source} {start middle stop : Nat} {cs ds : List Char}

theorem append (h : source.Segment start middle cs) (hmore : source.Segment middle stop ds) :
    source.Segment start stop (cs ++ ds) := by
  obtain ⟨front, back, hsplit, hstart, hmiddle⟩ := h
  obtain ⟨front', back', hsplit', hmiddle', hstop⟩ := hmore
  rw [hsplit, List.append_assoc front'] at hsplit'
  obtain ⟨hfront, -⟩ := append_inj_of_byteLength hsplit' (hmiddle.symm.trans hmiddle')
  refine ⟨front, back', ?_, hstart, ?_⟩
  · rw [hsplit, hsplit', ← hfront]
    simp
  · rw [hstop, ← hfront, List.append_assoc]

theorem slice_eq (h : source.Segment start stop cs) : source.slice start stop = cs := by
  obtain ⟨front, back, hsplit, hstart, hstop⟩ := h
  have hlength : stop - start = byteLength cs := by
    rw [hstart, hstop, byteLength_append, Nat.add_sub_cancel_left]
  rw [slice, hlength, hsplit, hstart, List.append_assoc, dropBytes_append, takeBytes_append]

end Segment

end Source

namespace Token

/-- The token is neither the end of a line nor that of the text. -/
def Solid (t : Token) : Prop := t.kind ≠ .newline ∧ t.kind ≠ .eof

/-- The characters that the token is written with, with its quotes. -/
def writtenText (t : Token) : List Char :=
  if t.kind = .string then '"' :: t.text.toList ++ ['"'] else t.text.toList

theorem writtenText_newline {t : Token} (ht : t.kind = .newline) (htext : t.text = "\n") :
    t.writtenText = ['\n'] := by
  rw [writtenText, ht, htext]
  decide

end Token

namespace Lexer

variable {source : Source} {back : List Char} {before : List Token} {pos after : Cursor}
  {t t' : Token}

theorem Reading.written (h : Reading source pos t after) :
    Passes pos.rest pos.offset t.writtenText after ∧ t.writtenStart = pos.offset ∧
      t.writtenStop = after.offset ∧ t.span.source = source := by
  cases h with
  | @bare kind cs rest hstring _ hsplit hplain _ _ _ =>
    have htext : (tokenOf source pos kind cs rest).1.writtenText = cs :=
      (if_neg hstring).trans String.toList_ofList
    rw [htext]
    exact ⟨⟨hsplit, hplain, rfl⟩, if_neg hstring, if_neg hstring, rfl⟩
  | newline hsplit =>
    rw [Token.writtenText_newline rfl rfl]
    refine ⟨⟨hsplit, ?_, rfl⟩, rfl, rfl, rfl⟩
    decide
  | @quoted inner rest hsplit hplain _ =>
    have hquote : byteLength ['"'] = 1 := rfl
    have hfirst : ('"' : Char).utf8Size = 1 := rfl
    refine ⟨⟨?_, ?_, ?_⟩, rfl, ?_, rfl⟩
    · rw [hsplit, Token.writtenText]
      simp
    · have hpair : Plain ['"'] := by decide
      rw [Token.writtenText, if_pos rfl, String.toList_ofList]
      exact List.forall_mem_cons.2 ⟨by decide, List.forall_mem_append.2 ⟨hplain, hpair⟩⟩
    · rw [Token.writtenText, if_pos rfl, String.toList_ofList, byteLength_quoted, ← Nat.add_assoc]
    · rw [Token.writtenStop, if_pos rfl]
      change pos.offset + 1 + byteLength inner + 1 = pos.offset + byteLength inner + 2
      omega

/-- A token that is no end does not stand where a line or the text ends. -/
theorem Reading.not_lineEnds (h : Reading source pos t after) (ht : t.Solid) :
    ¬LineEnds pos.rest := by
  cases h with
  | @bare kind cs rest _ _ hsplit hplain hnewline _ hgoes =>
    cases cs with
    | nil => exact absurd rfl (hgoes ht.2)
    | cons c cs =>
      rw [hsplit]
      rintro (hfirst | hend)
      · cases hfirst
        exact hnewline List.mem_cons_self
      · exact hplain c List.mem_cons_self (beq_iff_eq.1 hend)
  | newline _ => exact absurd rfl ht.1
  | quoted hsplit _ _ =>
    rw [hsplit]
    rintro (hfirst | hend)
    · cases hfirst
    · cases hend

/-- The cursor to which a lexer of the source has come with the tokens that it has read. The lexer
sees the source up to `back`. It began at the start, or in a quoted template that an outer lexer has
read, behind the mark of an interpolation. Then it sees no further than to the quote at the end of
this template. -/
inductive Lexed (source : Source) : List Char → List Token → Cursor → Prop
  | whole : Lexed source [] [] (.ofSource source)
  | inside {outer : List Char} {before : List Token} {t : Token} {pos after : Cursor}
    {passed rest : List Char} : Lexed source outer before pos →
      Lexer.next source pos = .ok (t, after) → t.kind = .string →
        t.text.toList = passed ++ rest → ['$', '\x7b'] <:+ passed →
          Lexed source ('"' :: (after.rest ++ outer)) []
            ⟨rest, t.span.start + byteLength passed,
              (source.position (t.span.start + byteLength passed)).1,
              (source.position (t.span.start + byteLength passed)).2⟩
  | next {back : List Char} {before : List Token} {t : Token} {pos after : Cursor} :
    Lexed source back before pos → Lexer.next source pos = .ok (t, after) →
      Lexed source back (before ++ [t]) after

/-- A lexer of the source has read the token, after those before, and stands behind it. -/
def Read (source : Source) (back : List Char) (before : List Token) (t : Token) (after : Cursor) :
    Prop :=
  ∃ pos, Lexed source back before pos ∧ next source pos = .ok (t, after)

/-- The cursor stands in the source, before `back`. -/
def Lies (source : Source) (back : List Char) (pos : Cursor) : Prop :=
  ∃ front, source.text.toList = front ++ pos.rest ++ back ∧ pos.offset = byteLength front

theorem Lies.passes {passed : List Char} (h : Lies source back pos)
    (hpasses : Passes pos.rest pos.offset passed after) :
    Lies source back after ∧ source.Segment pos.offset after.offset passed := by
  obtain ⟨front, hsplit, hoffset⟩ := h
  have hafter : after.offset = byteLength (front ++ passed) := by
    rw [hpasses.offset_eq, hoffset, byteLength_append]
  rw [hpasses.split] at hsplit
  refine ⟨⟨front ++ passed, ?_, hafter⟩, front, after.rest ++ back, ?_, hoffset, hafter⟩
  · rw [hsplit]
    simp
  · rw [hsplit]
    simp

/-- A token that is read lies in the source too, behind a gap. -/
theorem Lies.reading (h : Lies source back pos) (hnext : next source pos = .ok (t, after)) :
    ∃ middle, Lies source back middle ∧ Reading source middle t after := by
  obtain ⟨gap, middle, hgapped, hreading⟩ := reading_of_next hnext
  exact ⟨middle, (h.passes hgapped.passes).1, hreading⟩

theorem Lexed.lies (h : Lexed source back before pos) : Lies source back pos := by
  induction h with
  | whole => exact ⟨[], by simp [Cursor.ofSource], rfl⟩
  | @inside outer before t pos after passed rest _ hnext hstring htext _ ih =>
    obtain ⟨middle, ⟨front, hsplit, hoffset⟩, hreading⟩ := ih.reading hnext
    cases hreading with
    | bare hkind => exact absurd hstring hkind
    | newline => cases hstring
    | @quoted inner more hrest =>
      have hquote : byteLength ['"'] = 1 := rfl
      rw [String.toList_ofList] at htext
      refine ⟨front ++ ['"'] ++ passed, ?_, ?_⟩
      · rw [hsplit, hrest, htext]
        simp
      · rw [byteLength_append, byteLength_append, ← hoffset, hquote]
  | next _ hnext ih =>
    obtain ⟨middle, hmiddle, hreading⟩ := ih.reading hnext
    exact (hmiddle.passes hreading.written.1).1

/-- From the place on there is only filler before the token. What comes before the end of a line is
filler together with it. -/
def Beside (source : Source) (place : Nat) (t : Token) : Prop :=
  ∃ between, source.Segment place t.writtenStart between ∧ Filler (between ++ ['\n']) ∧
    (t.Solid → Filler between)

theorem Lies.beside (h : Lies source back pos) (hnext : next source pos = .ok (t, after)) :
    Beside source pos.offset t := by
  obtain ⟨gap, middle, hgapped, hreading⟩ := reading_of_next hnext
  obtain ⟨-, hsegment⟩ := h.passes hgapped.passes
  obtain ⟨-, hstart, -⟩ := hreading.written
  obtain ⟨hline, hfiller⟩ := hgapped.filler
  rw [← hstart] at hsegment
  exact ⟨gap, hsegment, hline, fun ht => hfiller (hreading.not_lineEnds ht)⟩

namespace Read

theorem lexed (h : Read source back before t after) : Lexed source back (before ++ [t]) after := by
  obtain ⟨pos, hlexed, hnext⟩ := h
  exact hlexed.next hnext

theorem next (h : Read source back before t after) {after' : Cursor}
    (hnext : Lexer.next source after = .ok (t', after')) :
    Read source back (before ++ [t]) t' after' :=
  ⟨after, h.lexed, hnext⟩

theorem source_eq (h : Read source back before t after) : t.span.source = source := by
  obtain ⟨pos, hlexed, hnext⟩ := h
  obtain ⟨gap, middle, -, hreading⟩ := reading_of_next hnext
  exact hreading.written.2.2.2

theorem segment (h : Read source back before t after) :
    source.Segment t.writtenStart t.writtenStop t.writtenText := by
  obtain ⟨pos, hlexed, hnext⟩ := h
  obtain ⟨gap, middle, hgapped, hreading⟩ := reading_of_next hnext
  obtain ⟨hpasses, hstart, hstop, -⟩ := hreading.written
  rw [hstart, hstop]
  exact ((hlexed.lies.passes hgapped.passes).1.passes hpasses).2

theorem offset_eq (h : Read source back before t after) : after.offset = t.writtenStop := by
  obtain ⟨pos, hlexed, hnext⟩ := h
  obtain ⟨gap, middle, -, hreading⟩ := reading_of_next hnext
  exact hreading.written.2.2.1.symm

/-- The next token stands beside the one that has been read. -/
theorem beside (h : Read source back before t after) {after' : Cursor}
    (hnext : Lexer.next source after = .ok (t', after')) : Beside source t.writtenStop t' := by
  rw [← h.offset_eq]
  exact h.lexed.lies.beside hnext

end Read

/-- The end of a line is filler too. -/
theorem Beside.next {place : Nat} {after' : Cursor} (h : Beside source place t)
    (hread : Read source back before t after) (ht : t.kind = .newline)
    (hnext : Lexer.next source after = .ok (t', after')) : Beside source place t' := by
  obtain ⟨between, hsegment, hline, -⟩ := h
  obtain ⟨more, hmore, hmoreLine, hmoreSolid⟩ := hread.beside hnext
  have hnewline : t.writtenText = ['\n'] := by
    obtain ⟨pos, -, hread⟩ := hread
    obtain ⟨gap, middle, -, hreading⟩ := reading_of_next hread
    cases hreading with
    | bare _ hkind => exact absurd ht hkind
    | newline _ => exact Token.writtenText_newline rfl rfl
    | quoted => cases ht
  have htoken := hread.segment
  rw [hnewline] at htoken
  refine ⟨between ++ ['\n'] ++ more, (hsegment.append htoken).append hmore, ?_, fun hsolid => ?_⟩
  · rw [List.append_assoc]
    exact hline.append hmoreLine
  · exact hline.append (hmoreSolid hsolid)

end Lexer

end StaticConfig
