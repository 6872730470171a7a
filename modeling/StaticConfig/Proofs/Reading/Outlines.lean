import StaticConfig.Proofs.Builtin.Verbs
import StaticConfig.Proofs.Reading.Chunks

/-!
Outlines of tokens. The range of a token lies between characters of its source, so its text can be
shown. A long text is cut at a fixed byte of its escaped form. Escapes are made of characters of one
byte, so the cut goes wrong only within a longer character that shows as itself.
-/
namespace StaticConfig

namespace Text

variable {style : EscapeStyle} {c d : Char}

theorem codeEscape_narrow (c : Char) : ∀ d ∈ codeEscape c, d.utf8Size = 1 := by
  have hdigits : Spells 16 c.toNat (Nat.toDigits 16 c.toNat) :=
    Builtin.Format.spells_toDigits (by decide) (Nat.le_refl 16) c.toNat
  have hopening : ∀ d ∈ ['\\', 'u', '\x7b'], d.utf8Size = 1 := by simp [Char.utf8Size]
  refine List.forall_mem_append.2 ⟨List.forall_mem_append.2 ⟨hopening, fun d hd => ?_⟩, ?_⟩
  · exact utf8Size_of_digitValue (digitValue_of_readNat hdigits.read d hd)
  · exact List.forall_mem_singleton.2 (by decide)

/-- An escape of a character is made of characters of one byte, unless it has the character. -/
theorem narrow_of_mem_escapeChar (h : d ∈ escapeChar style c) : d.utf8Size = 1 ∨ d = c := by
  have hpair {a : Char} (ha : a.utf8Size = 1) : ∀ d ∈ ['\\', a], d.utf8Size = 1 :=
    List.forall_mem_cons.2 ⟨by decide, List.forall_mem_singleton.2 ha⟩
  unfold escapeChar at h
  split_ifs at h
  · exact .inl (hpair (by decide) d h)
  · exact .inl (hpair (by decide) d h)
  · exact .inl (hpair (by decide) d h)
  · exact .inl (hpair (by decide) d h)
  · exact .inl (hpair (by decide) d h)
  · exact .inl (hpair (by decide) d h)
  · rcases List.mem_cons.1 h with rfl | h
    · exact .inl (by decide)
    · exact .inr (List.mem_singleton.1 h)
  · exact .inl (codeEscape_narrow c d h)
  · exact .inr (List.mem_singleton.1 h)
  · exact .inl (codeEscape_narrow c d h)

/-- The usual controls, quotes and backslashes have one byte. -/
theorem escapeChar_of_wide (hc : c.utf8Size ≠ 1) : escapeChar style c =
    if style.extending && isExtending c then codeEscape c
    else if isPrintable c then [c] else codeEscape c := by
  have hne {a : Char} (ha : a.utf8Size = 1) : c ≠ a := by
    rintro rfl
    exact hc ha
  have hzero : c.toNat ≠ 0 := fun h => hne (a := '\x00') (by decide) (Char.toNat_inj.1 h)
  have hquote : c.toNat ≠ 0x27 := fun h => hne (a := '\x27') (by decide) (Char.toNat_inj.1 h)
  simp [escapeChar, hzero, hquote, @hne '\t' (by decide), @hne '\r' (by decide),
    @hne '\n' (by decide), @hne '\\' (by decide), @hne '"' (by decide)]

/-- A longer character in an escape is shown as itself, and alone. -/
theorem alone_of_escapeChar {front back : List Char} (h : escapeChar style c = front ++ d :: back)
    (hd : d.utf8Size ≠ 1) : front = [] ∧ d = c ∧ isPrintable c = true := by
  have hmem : d ∈ escapeChar style c := by
    rw [h]
    exact List.mem_append_right front List.mem_cons_self
  obtain rfl : d = c := (narrow_of_mem_escapeChar hmem).resolve_left hd
  have hcode : escapeChar style d ≠ codeEscape d := fun hcode =>
    hd (codeEscape_narrow d d (hcode ▸ hmem))
  have hwide := @escapeChar_of_wide style d hd
  split_ifs at hwide with hextending hprintable
  · exact absurd hwide hcode
  · rw [hwide] at h
    obtain ⟨hfront, -⟩ := (List.append_eq_singleton_iff.1 h.symm).resolve_right nofun
    exact ⟨hfront, rfl, hprintable⟩
  · exact absurd hwide hcode

/-- How the characters behind the first one of a text are shown. -/
def escapeRest (cs : List Char) : List Char := cs.flatMap (escapeChar ⟨false, true, true⟩)

theorem escapeLine_append {before : List Char} (h : before ≠ []) (after : List Char) :
    escapeLine (before ++ after) = escapeLine before ++ escapeRest after := by
  obtain ⟨c, cs, rfl⟩ := List.exists_cons_of_ne_nil h
  rw [List.cons_append, escapeLine, escapeLine, List.flatMap_append, List.append_assoc]
  rfl

/-- Where a longer character stands among the shown ones, it stands for itself. -/
theorem exists_of_escapeRest {cs front back : List Char} (hd : d.utf8Size ≠ 1)
    (h : escapeRest cs = front ++ d :: back) : ∃ before after,
      cs = before ++ d :: after ∧ front = escapeRest before ∧ isPrintable d = true := by
  induction cs generalizing front with
  | nil => simp [escapeRest] at h
  | cons c cs ih =>
    rw [escapeRest, List.flatMap_cons] at h
    rcases Lexer.character_of_append h with ⟨rest, hfirst⟩ | ⟨more, hfront, hrest⟩
    · obtain ⟨rfl, rfl, hprintable⟩ := alone_of_escapeChar hfirst hd
      exact ⟨[], cs, rfl, rfl, hprintable⟩
    · obtain ⟨before, after, hcs, hmore, hprintable⟩ := ih hrest
      refine ⟨c :: before, after, by rw [hcs]; rfl, ?_, hprintable⟩
      rw [hfront, hmore]
      rfl

end Text

/-! Cutting a text at a byte. -/

/-- A character of the text begins before the byte and ends behind it. -/
def Straddled (n : Nat) (cs : List Char) : Prop :=
  ∃ front c back, cs = front ++ c :: back ∧ byteLength front < n ∧
    n < byteLength front + c.utf8Size

namespace Span

theorem takeBytes_zero (cs : List Char) : takeBytes 0 cs = [] := by
  cases cs <;> rfl

theorem takeBytes_of_straddled {n : Nat} {front back : List Char} {c : Char}
    (hfront : byteLength front < n) (hback : n < byteLength front + c.utf8Size) :
    takeBytes n (front ++ c :: back) = front ++ [c] := by
  induction front generalizing n with
  | nil =>
    have hnone : byteLength [] = 0 := rfl
    rw [hnone] at hfront hback
    have hleft : n - c.utf8Size = 0 := by omega
    rw [List.nil_append, takeBytes, if_neg (by omega), hleft, takeBytes_zero, List.nil_append]
  | cons d front ih =>
    rw [byteLength_cons] at hfront hback
    have hpos := d.utf8Size_pos
    rw [List.cons_append, takeBytes, if_neg (by omega), ih (by omega) (by omega), List.cons_append]

theorem byteLength_takeBytes {n : Nat} {cs : List Char} (h : n ≤ byteLength cs) :
    byteLength (takeBytes n cs) = n ∨ Straddled n cs := by
  induction cs generalizing n with
  | nil =>
    have hzero : n = 0 := Nat.le_zero.1 h
    rw [hzero]
    exact .inl rfl
  | cons c cs ih =>
    rw [byteLength_cons] at h
    by_cases hzero : n = 0
    · rw [hzero]
      exact .inl rfl
    · by_cases hlt : n < c.utf8Size
      · exact .inr ⟨[], c, cs, rfl, Nat.pos_of_ne_zero hzero, by simpa [byteLength] using hlt⟩
      · rcases @ih (n - c.utf8Size) (by omega) with hlength | ⟨front, d, back, rfl, hfront, hback⟩
        · rw [takeBytes, if_neg hzero, byteLength_cons, hlength]
          exact .inl (by omega)
        · refine .inr ⟨c :: front, d, back, rfl, ?_, ?_⟩
          · rw [byteLength_cons]
            omega
          · rw [byteLength_cons]
            omega

/-- A text has no part of so many bytes exactly if a character is in the way. -/
theorem cutAt_eq_none_iff {n : Nat} {cs : List Char} (h : n ≤ byteLength cs) :
    cutAt n cs = none ↔ Straddled n cs := by
  have hcut : cutAt n cs = none ↔ byteLength (takeBytes n cs) ≠ n := by
    unfold cutAt
    simp
  rw [hcut]
  constructor
  · intro hne
    exact (byteLength_takeBytes h).resolve_left hne
  · rintro ⟨front, c, back, rfl, hfront, hback⟩
    rw [takeBytes_of_straddled hfront hback, byteLength_append]
    have hone : byteLength [c] = c.utf8Size := rfl
    omega

/-- A printable character of the text stands across the limit of what an outline shows. -/
def Overhangs (s : Span) : Prop :=
  ∃ before c after, s.text.toList = before ++ c :: after ∧ Text.isPrintable c = true ∧
    byteLength (Text.escapeLine before) < outlineLimit ∧
      outlineLimit < byteLength (Text.escapeLine before) + c.utf8Size

theorem straddled_escapeLine_iff {s : Span} :
    Straddled outlineLimit (Text.escapeLine s.text.toList) ↔ s.Overhangs := by
  -- no character alone is longer than the limit
  have hlimit (c : Char) : c.utf8Size < outlineLimit :=
    Nat.lt_of_le_of_lt (Char.utf8Size_le_four c) (by decide)
  have hnone : byteLength [] = 0 := rfl
  constructor
  · rintro ⟨front, d, back, hshown, hfront, hback⟩
    have hwide : d.utf8Size ≠ 1 := by omega
    cases htext : s.text.toList with
    | nil =>
      rw [htext, Text.escapeLine] at hshown
      exact absurd hshown.symm (by simp)
    | cons c cs =>
      rw [htext, Text.escapeLine] at hshown
      rcases Lexer.character_of_append hshown with ⟨rest, hfirst⟩ | ⟨more, rfl, hrest⟩
      · obtain ⟨rfl, -, -⟩ := Text.alone_of_escapeChar hfirst hwide
        have hd := hlimit d
        omega
      · obtain ⟨before, after, rfl, rfl, hprintable⟩ := Text.exists_of_escapeRest hwide hrest
        exact ⟨c :: before, d, after, htext, hprintable, hfront, hback⟩
  · rintro ⟨before, c, after, htext, hprintable, hfront, hback⟩
    have hbefore : before ≠ [] := by
      rintro rfl
      have hc := hlimit c
      rw [Text.escapeLine, hnone] at hback
      omega
    have hself : Text.escapeChar ⟨false, true, true⟩ c = [c] := by
      rw [Text.escapeChar_of_wide (by omega)]
      simp [hprintable]
    refine ⟨Text.escapeLine before, c, Text.escapeRest after, ?_, hfront, hback⟩
    rw [htext, Text.escapeLine_append hbefore, Text.escapeRest, List.flatMap_cons, hself]
    rfl

/-- A span has no outline exactly if a character stands across the limit. -/
theorem outline_eq_none_iff {s : Span} : s.outline = none ↔ s.Overhangs := by
  rw [← straddled_escapeLine_iff, outline]
  split
  · next hshort =>
    constructor
    · nofun
    · rintro ⟨front, c, back, hshown, hfront, hback⟩
      rw [hshown, byteLength_append, byteLength_cons] at hshort
      omega
  · next hlong =>
    rw [Option.map_eq_none_iff]
    exact cutAt_eq_none_iff (Nat.le_of_not_le hlong)

end Span

namespace Lexer

variable {source : Source} {back : List Char} {pos after : Cursor} {t : Token}

/-- A lexer of the whole source, or of a range between characters, begins at the cursor. -/
inductive Begins (source : Source) : Cursor → Prop
  | whole : Begins source (.ofSource source)
  | range {start stop : Nat} : Boundary 0 source.text.toList start →
    Boundary 0 source.text.toList stop → Begins source (.ofRange source start stop)

theorem Begins.lies (h : Begins source pos) : ∃ back, Lies source back pos := by
  cases h with
  | whole => exact ⟨[], Lexed.whole.lies⟩
  | @range start stop hstart hstop =>
    obtain ⟨front, hfront, rfl⟩ := hstart
    obtain ⟨upto, hupto, rfl⟩ := hstop
    rw [Nat.zero_add, Nat.zero_add]
    obtain ⟨back, hback⟩ := id hupto
    rcases List.prefix_or_prefix_of_prefix hfront hupto with ⟨middle, rfl⟩ | ⟨more, rfl⟩
    · have hslice : source.slice (byteLength front) (byteLength (front ++ middle)) = middle :=
        Source.Segment.slice_eq ⟨front, back, hback.symm, rfl, rfl⟩
      have hle : byteLength front ≤ byteLength (front ++ middle) := by
        rw [byteLength_append]
        exact Nat.le_add_right _ _
      refine ⟨back, front, ?_, Nat.min_eq_left hle⟩
      rw [Cursor.ofRange, hslice, hback]
    · have hle : byteLength upto ≤ byteLength (upto ++ more) := by
        rw [byteLength_append]
        exact Nat.le_add_right _ _
      have hslice : source.slice (byteLength (upto ++ more)) (byteLength upto) = [] := by
        rw [Source.slice, Nat.sub_eq_zero_of_le hle, Span.takeBytes_zero]
      refine ⟨back, upto, ?_, Nat.min_eq_right hle⟩
      rw [Cursor.ofRange, hslice, List.append_nil, hback]

/-- The range of a token that is read has the token's text, and the cursor stays in the source. -/
theorem Lies.next (h : Lies source back pos) (hnext : next source pos = .ok (t, after)) :
    Lies source back after ∧ t.span.source = source ∧
      source.Segment t.span.start t.span.stop t.text.toList := by
  obtain ⟨middle, hmiddle, hreading⟩ := h.reading hnext
  obtain ⟨hpasses, hstart, hstop, hsource⟩ := hreading.written
  obtain ⟨hafter, hsegment⟩ := hmiddle.passes hpasses
  refine ⟨hafter, hsource, ?_⟩
  by_cases hstring : t.kind = .string
  · -- the quotes are written, but not in the range
    obtain ⟨front, hsplit, hoffset⟩ := hmiddle
    cases hreading with
    | bare hkind => exact absurd hstring hkind
    | newline => cases hstring
    | @quoted inner rest hrest =>
      have hquote : byteLength ['"'] = 1 := rfl
      have hinner : middle.offset + 1 = byteLength (front ++ ['"']) := by
        rw [byteLength_append, hquote, hoffset]
      refine ⟨front ++ ['"'], '"' :: rest ++ back, ?_, hinner, ?_⟩
      · rw [hsplit, hrest, String.toList_ofList]
        simp
      · rw [byteLength_append, String.toList_ofList, ← hinner]
  · rw [Token.writtenStart, if_neg hstring] at hstart
    rw [Token.writtenStop, if_neg hstring] at hstop
    rwa [Token.writtenText, if_neg hstring, ← hstart, ← hstop] at hsegment

/-- Every token of a lexer has its text in its range. -/
theorem Lies.tokensUpTo (h : Lies source back pos) (limit : Nat) :
    ∀ t ∈ (tokensUpTo source limit pos).1, t.span.source = source ∧
      source.Segment t.span.start t.span.stop t.text.toList := by
  induction limit generalizing pos with
  | zero => exact nofun
  | succ limit ih =>
    rw [Lexer.tokensUpTo]
    split
    · exact nofun
    · next t after hnext =>
      obtain ⟨hafter, htoken⟩ := h.next hnext
      split
      · exact List.forall_mem_singleton.2 htoken
      · exact List.forall_mem_cons.2 ⟨htoken, ih hafter⟩

/-- The range of every token lies between characters of the source, so it has a text. An outline of
it can be given unless a character stands across the limit. -/
theorem exists_outline_iff (h : Begins source pos) (ht : t ∈ (tokens source pos).1) :
    t.span.source = source ∧
      source.Segment t.span.start t.span.stop t.span.text.toList ∧ t.span.text = t.text ∧
        ((∃ shown, t.span.outline = some shown) ↔ ¬t.span.Overhangs) := by
  obtain ⟨back, hlies⟩ := h.lies
  obtain ⟨hsource, hsegment⟩ := hlies.tokensUpTo _ t ht
  have htext : t.span.text = t.text := by
    rw [Span.text, hsource, hsegment.slice_eq, String.ofList_toList]
  rw [htext, ← Span.outline_eq_none_iff, ← Option.ne_none_iff_exists']
  exact ⟨hsource, hsegment, rfl, Iff.rfl⟩

/-- The limit falls between two characters of two bytes. -/
theorem exists_outline_iff_accents :
    ∃ t ∈ (tokens ⟨"a.tf", "ééééééééééééééééé"⟩ (.ofSource ⟨"a.tf", "ééééééééééééééééé"⟩)).1,
      t.span.outline = some "1:1:0:34, \"éééééééééééééééé...\"" ∧ ¬t.span.Overhangs := by
  have hmem : ⟨.ident, "ééééééééééééééééé", ⟨⟨"a.tf", "ééééééééééééééééé"⟩, 1, 1, 0, 34⟩⟩ ∈
      (tokens ⟨"a.tf", "ééééééééééééééééé"⟩ (.ofSource ⟨"a.tf", "ééééééééééééééééé"⟩)).1 := by
    decide +kernel
  obtain ⟨-, -, -, houtline⟩ := exists_outline_iff .whole hmem
  have hshown : (⟨⟨"a.tf", "ééééééééééééééééé"⟩, 1, 1, 0, 34⟩ : Span).outline =
      some "1:1:0:34, \"éééééééééééééééé...\"" := by
    decide +kernel
  exact ⟨_, hmem, hshown, houtline.1 ⟨_, hshown⟩⟩

/-- A name of 31 characters of one byte with a longer one behind them has none. -/
theorem exists_outline_eq_none :
    ∃ t ∈ (tokens ⟨"a.tf", "aaaaaaaaaaaaaaaaaaaaaaaaaaaaaaaé"⟩
      (.ofSource ⟨"a.tf", "aaaaaaaaaaaaaaaaaaaaaaaaaaaaaaaé"⟩)).1, t.span.outline = none := by
  decide +kernel

end Lexer

end StaticConfig
