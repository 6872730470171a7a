import Mathlib.Data.List.TakeWhile
import StaticConfig.Proofs.Except
import StaticConfig.Proofs.RoundTrip.Quoted

/-!
What the lexer passes over before a token: blanks and comments, none of them the character that
stands for the end. A comment to the end of a line ends before it, so all of a gap is filler once
this end is counted too.
-/
namespace StaticConfig

open Text.Quoted (Plain)

theorem byteLength_append (as bs : List Char) :
    byteLength (as ++ bs) = byteLength as + byteLength bs := by
  induction as with
  | nil => simp [byteLength]
  | cons a as ih => rw [List.cons_append, byteLength_cons, byteLength_cons, ih, Nat.add_assoc]

namespace Lexer

/-- From the text at the offset the cursor has come over the characters that are passed. -/
structure Passes (cs : List Char) (offset : Nat) (passed : List Char) (after : Cursor) : Prop where
  split : cs = passed ++ after.rest
  plain : Plain passed
  offset_eq : after.offset = offset + byteLength passed

namespace Passes

variable {cs passed : List Char} {offset : Nat} {after : Cursor}

theorem refl {line col : Nat} : Passes cs offset [] ⟨cs, offset, line, col⟩ :=
  ⟨rfl, nofun, rfl⟩

theorem cons {c : Char} (hc : c.toNat ≠ 0) (h : Passes cs (offset + c.utf8Size) passed after) :
    Passes (c :: cs) offset (c :: passed) after := by
  refine ⟨by rw [h.split, List.cons_append], List.forall_mem_cons.2 ⟨hc, h.plain⟩, ?_⟩
  rw [h.offset_eq, byteLength_cons, Nat.add_assoc]

theorem trans {more : List Char} {middle : Cursor} (h : Passes cs offset passed middle)
    (hmore : Passes middle.rest middle.offset more after) :
    Passes cs offset (passed ++ more) after := by
  refine ⟨by rw [h.split, hmore.split, List.append_assoc], ?_, ?_⟩
  · exact List.forall_mem_append.2 ⟨h.plain, hmore.plain⟩
  · rw [hmore.offset_eq, h.offset_eq, byteLength_append, Nat.add_assoc]

end Passes

/-- The text is a comment, or the start of one that goes on to the end of its line. -/
inductive Comment : List Char → Prop
  | hash {body : List Char} : '\n' ∉ body → Comment ('#' :: body)
  | slashes {body : List Char} : '\n' ∉ body → Comment ('/' :: '/' :: body)
  | block {body : List Char} : ¬['*', '/'] <:+: body → Comment ('/' :: '*' :: body ++ ['*', '/'])

/-- The characters between tokens that are in no comment. -/
def blanks : List Char := [' ', '\t', '\r']

/-- The text has blanks and comments only. -/
inductive Skipped : List Char → Prop
  | nil : Skipped []
  | blank {c : Char} {cs : List Char} : c ∈ blanks → Skipped cs → Skipped (c :: cs)
  | comment {text cs : List Char} : Comment text → Skipped cs → Skipped (text ++ cs)

/-- The text has blanks, ends of lines and comments only. A comment to the end of a line ends with
it. -/
inductive Filler : List Char → Prop
  | nil : Filler []
  | blank {c : Char} {cs : List Char} : c ∈ '\n' :: blanks → Filler cs → Filler (c :: cs)
  | line {text cs : List Char} : Comment text → Filler cs → Filler (text ++ '\n' :: cs)
  | block {body cs : List Char} : ¬['*', '/'] <:+: body → Filler cs →
    Filler (('/' :: '*' :: body ++ ['*', '/']) ++ cs)

theorem Filler.append {cs ds : List Char} (h : Filler cs) (hds : Filler ds) :
    Filler (cs ++ ds) := by
  induction h with
  | nil => exact hds
  | blank hc _ ih => exact .blank hc ih
  | line htext _ ih =>
    rw [List.append_assoc]
    exact .line htext ih
  | block hbody _ ih =>
    rw [List.append_assoc]
    exact .block hbody ih

/-- A line, or the text, ends here. -/
def LineEnds (cs : List Char) : Prop := cs.head? = some '\n' ∨ atEnd cs = true

/-- The line and column behind the characters, from the line and column before them. -/
def moved (place : Nat × Nat) (cs : List Char) : Nat × Nat :=
  cs.foldl (fun place c => if c = '\n' then (place.1 + 1, 1) else (place.1, place.2 + 1)) place

/-- The columns that the lexer counts for a blank. -/
def width (c : Char) : Nat :=
  if c = ' ' then 1 else if c = '\t' then 4 else 0

/-- From the first cursor the lexer passes the characters of a gap. It does not count the columns of
a comment to the end of a line, nor that of the end itself. -/
inductive Gapped : Cursor → List Char → Cursor → Prop
  | stop {pos : Cursor} : Gapped pos [] pos
  | blank {c : Char} {cs passed : List Char} {offset line col : Nat} {after : Cursor} :
    c ∈ blanks → (c = '\r' → cs.head? = some '\n') →
      Gapped ⟨cs, offset + 1, line, col + width c⟩ passed after →
        Gapped ⟨c :: cs, offset, line, col⟩ (c :: passed) after
  | line {text rest : List Char} {offset line col : Nat} : Comment text → '\n' ∉ text →
    Plain text → LineEnds rest →
      Gapped ⟨text ++ rest, offset, line, col⟩ text ⟨rest, offset + byteLength text, line, col⟩
  | block {body rest passed : List Char} {offset line col : Nat} {after : Cursor} :
    ¬['*', '/'] <:+: body → Plain body →
      Gapped ⟨rest, offset + byteLength body + 4, (moved (line, col + 2) body).1,
        (moved (line, col + 2) body).2 + 2⟩ passed after →
          Gapped ⟨('/' :: '*' :: body ++ ['*', '/']) ++ rest, offset, line, col⟩
            (('/' :: '*' :: body ++ ['*', '/']) ++ passed) after

/-- What is passed from a point of a gap on. -/
def GappedFrom : Gap → Cursor → Cursor → Prop
  | .blank, pos, after => ∃ passed, Gapped pos passed after
  | .lineComment, pos, after =>
    ∃ body, '\n' ∉ body ∧ Plain body ∧ pos.rest = body ++ after.rest ∧ LineEnds after.rest ∧
      after = ⟨after.rest, pos.offset + byteLength body, pos.line, pos.col⟩
  | .blockComment _ _, pos, after =>
    ∃ body rest passed, ¬['*', '/'] <:+: body ∧ Plain body ∧
      pos.rest = body ++ '*' :: '/' :: rest ∧
        Gapped ⟨rest, pos.offset + byteLength body + 2, (moved (pos.line, pos.col) body).1,
          (moved (pos.line, pos.col) body).2 + 2⟩ passed after

theorem GappedFrom.line (opening : List Char) {cs : List Char} {offset line col : Nat}
    {after : Cursor} (hcomment : ∀ body, '\n' ∉ body → Comment (opening ++ body))
    (hplain : Plain opening) (hopening : '\n' ∉ opening)
    (h : GappedFrom .lineComment ⟨cs, offset + byteLength opening, line, col⟩ after) :
    GappedFrom .blank ⟨opening ++ cs, offset, line, col⟩ after := by
  obtain ⟨body, hbody, hbodyPlain, hsplit, hends, hafter⟩ := h
  refine ⟨opening ++ body, ?_⟩
  have hcs : cs = body ++ after.rest := hsplit
  rw [hcs, ← List.append_assoc, hafter]
  have hoffset : offset + byteLength opening + byteLength body =
      offset + byteLength (opening ++ body) := by
    rw [byteLength_append, Nat.add_assoc]
  rw [hoffset]
  have hnewline : '\n' ∉ opening ++ body := by
    rw [List.mem_append, not_or]
    exact ⟨hopening, hbody⟩
  exact .line (hcomment body hbody) hnewline (List.forall_mem_append.2 ⟨hplain, hbodyPlain⟩) hends

/-- A comment that goes on does not end before. -/
theorem GappedFrom.inside {l c : Nat} {ch : Char} {cs : List Char} {offset line col : Nat}
    {after : Cursor} (hclose : ∀ more, ch = '*' → cs = '/' :: more → False) (hch : ch.toNat ≠ 0)
    (h : GappedFrom (.blockComment l c) ⟨cs, offset + ch.utf8Size,
      (moved (line, col) [ch]).1, (moved (line, col) [ch]).2⟩ after) :
    GappedFrom (.blockComment l c) ⟨ch :: cs, offset, line, col⟩ after := by
  obtain ⟨body, rest, passed, hbody, hplain, hsplit, hgapped⟩ := h
  have hcs : cs = body ++ '*' :: '/' :: rest := hsplit
  refine ⟨ch :: body, rest, passed, ?_, List.forall_mem_cons.2 ⟨hch, hplain⟩, ?_, ?_⟩
  · rw [List.infix_cons_iff, not_or]
    refine ⟨fun hprefix => ?_, hbody⟩
    obtain ⟨rfl, hslash⟩ := List.cons_prefix_cons.1 hprefix
    obtain ⟨more, hmore⟩ := hslash
    refine hclose (more ++ '*' :: '/' :: rest) rfl ?_
    rw [hcs, ← hmore]
    simp
  · change ch :: cs = _
    rw [hcs, List.cons_append]
  · change Gapped ⟨rest, offset + byteLength (ch :: body) + 2, _, _⟩ passed after
    rw [byteLength_cons, ← Nat.add_assoc]
    exact hgapped

theorem gapped_of_skipGap {source : Source} {gap : Gap} {cs : List Char} {offset line col : Nat}
    {after : Cursor} (h : skipGap source gap cs offset line col = .ok after) :
    GappedFrom gap ⟨cs, offset, line, col⟩ after := by
  fun_induction skipGap source gap cs offset line col with
  | case1 => cases h
  | case2 gap offset line col hgap =>
    cases h
    cases gap with
    | blank => exact ⟨[], .stop⟩
    | lineComment => exact ⟨[], List.not_mem_nil, nofun, rfl, .inr rfl, rfl⟩
    | blockComment l c => exact absurd rfl (hgap l c)
  | case3 cs offset line col ih =>
    obtain ⟨body, rest, passed, hbody, hplain, hsplit, hgapped⟩ := ih h
    have hcs : cs = body ++ '*' :: '/' :: rest := hsplit
    have htext : '/' :: '*' :: cs = ('/' :: '*' :: body ++ ['*', '/']) ++ rest := by
      rw [hcs]
      simp
    have hoffset : offset + 2 + byteLength body + 2 = offset + byteLength body + 4 := by omega
    change Gapped ⟨rest, offset + 2 + byteLength body + 2, _, _⟩ passed after at hgapped
    rw [hoffset] at hgapped
    rw [htext]
    exact ⟨_, .block hbody hplain hgapped⟩
  | case4 cs offset line col ih =>
    exact (ih h).line ['/', '/'] (fun _ => .slashes) (by decide) (by decide)
  | case5 cs offset line col _ _ ih =>
    obtain ⟨passed, hgapped⟩ := ih h
    exact ⟨_, .blank (by decide) nofun hgapped⟩
  | case6 cs offset line col _ _ _ ih =>
    obtain ⟨passed, hgapped⟩ := ih h
    exact ⟨_, .blank (by decide) nofun hgapped⟩
  | case7 cs offset line col hnewline _ _ _ _ ih =>
    obtain ⟨passed, hgapped⟩ := ih h
    exact ⟨_, .blank (by decide) (fun _ => hnewline) hgapped⟩
  | case8 => cases h
  | case9 cs offset line col _ _ _ _ _ ih =>
    exact (ih h).line ['#'] (fun _ => .hash) (by decide) (by decide)
  | case10 ch cs offset line col =>
    cases h
    exact ⟨[], .stop⟩
  | case11 ch cs offset line col hend =>
    cases h
    refine ⟨[], List.not_mem_nil, nofun, rfl, ?_, rfl⟩
    rcases hend with rfl | hend
    · exact .inl rfl
    · exact .inr (beq_iff_eq.2 hend)
  | case12 ch cs offset line col hend ih =>
    obtain ⟨body, hbody, hplain, hsplit, hends, hafter⟩ := ih h
    rw [not_or] at hend
    refine ⟨ch :: body, ?_, List.forall_mem_cons.2 ⟨hend.2, hplain⟩, ?_, hends, ?_⟩
    · exact List.not_mem_cons_of_ne_of_not_mem (Ne.symm hend.1) hbody
    · exact congrArg (ch :: ·) hsplit
    · rw [byteLength_cons, ← Nat.add_assoc]
      exact hafter
  | case13 l c cs offset line col ih =>
    obtain ⟨passed, hgapped⟩ := ih h
    exact ⟨[], cs, passed, by simp, nofun, rfl, hgapped⟩
  | case14 => cases h
  | case15 l c cs offset line col hclose hend ih =>
    refine (?_ : GappedFrom _ _ _).inside hclose (by decide)
    exact ih h
  | case16 l c ch cs offset line col hclose hend hline ih =>
    refine GappedFrom.inside hclose hend ?_
    have hmoved : moved (line, col) [ch] = (line, col + 1) := if_neg hline
    rw [hmoved]
    exact ih h

theorem byteLength_block (body : List Char) :
    byteLength ('/' :: '*' :: body ++ ['*', '/']) = byteLength body + 4 := by
  have hclosing : byteLength ['*', '/'] = 2 := rfl
  have hslash : ('/' : Char).utf8Size = 1 := rfl
  have hstar : ('*' : Char).utf8Size = 1 := rfl
  rw [List.cons_append, List.cons_append, byteLength_cons, byteLength_cons, byteLength_append,
    hclosing, hslash, hstar]
  omega

section Gapped

variable {pos after : Cursor} {passed : List Char}

theorem Gapped.passes (h : Gapped pos passed after) :
    Passes pos.rest pos.offset passed after := by
  induction h with
  | stop => exact .refl
  | @blank c _ _ _ _ _ _ hc _ _ ih =>
    have hblank : c.toNat ≠ 0 ∧ c.utf8Size = 1 := by
      simp only [blanks, List.mem_cons, List.not_mem_nil, or_false] at hc
      rcases hc with rfl | rfl | rfl <;> decide
    refine .cons hblank.1 ?_
    rw [hblank.2]
    exact ih
  | line _ _ hplain _ => exact ⟨rfl, hplain, rfl⟩
  | @block body rest passed offset line col after _ hplain _ ih =>
    have hblock : Plain ('/' :: '*' :: body ++ ['*', '/']) := by
      have hopening : Plain ['/', '*'] := by decide
      have hclosing : Plain ['*', '/'] := by decide
      have hbody : Plain (['/', '*'] ++ body) := List.forall_mem_append.2 ⟨hopening, hplain⟩
      exact List.forall_mem_append.2 ⟨hbody, hclosing⟩
    refine Passes.trans ⟨rfl, hblock, ?_⟩ ih
    rw [byteLength_block, Nat.add_assoc]

theorem Gapped.skipped (h : Gapped pos passed after) : Skipped passed := by
  induction h with
  | stop => exact .nil
  | blank hc _ _ ih => exact .blank hc ih
  | @line text _ _ _ _ htext _ _ _ =>
    have hcomment := Skipped.comment htext .nil
    rwa [List.append_nil] at hcomment
  | block hbody _ _ ih => exact .comment (.block hbody) ih

/-- A gap is filler, and so is the end of the line behind it. -/
theorem Gapped.filler (h : Gapped pos passed after) :
    Filler (passed ++ ['\n']) ∧ (¬LineEnds after.rest → Filler passed) := by
  induction h with
  | stop => exact ⟨.blank List.mem_cons_self .nil, fun _ => .nil⟩
  | blank hc _ _ ih =>
    have hc := List.mem_cons_of_mem '\n' hc
    exact ⟨.blank hc ih.1, fun hends => .blank hc (ih.2 hends)⟩
  | line htext _ _ hends => exact ⟨.line htext .nil, fun hnot => absurd hends hnot⟩
  | block hbody _ _ ih =>
    refine ⟨?_, fun hends => .block hbody (ih.2 hends)⟩
    rw [List.append_assoc]
    exact .block hbody ih.1

/-- Nothing is passed where a line or the text ends. -/
theorem Gapped.of_lineEnds (h : Gapped pos passed after) (hends : LineEnds pos.rest) :
    passed = [] ∧ after = pos := by
  have hgoes {c : Char} {cs : List Char} (hc : c ≠ '\n' ∧ c.toNat ≠ 0) : ¬LineEnds (c :: cs) := by
    rintro (hfirst | hend)
    · exact hc.1 (Option.some.inj hfirst)
    · exact hc.2 (beq_iff_eq.1 hend)
  cases h with
  | stop => exact ⟨rfl, rfl⟩
  | @blank c _ _ _ _ _ _ hc =>
    have hblank : c ≠ '\n' ∧ c.toNat ≠ 0 := by
      simp only [blanks, List.mem_cons, List.not_mem_nil, or_false] at hc
      rcases hc with rfl | rfl | rfl <;> decide
    exact absurd hends (hgoes hblank)
  | line htext =>
    cases htext with
    | hash => exact absurd hends (hgoes (by decide))
    | slashes => exact absurd hends (hgoes (by decide))
    | block => exact absurd hends (hgoes (by decide))
  | block => exact absurd hends (hgoes (by decide))

end Gapped

end Lexer

end StaticConfig

/-!
What the lexer reads as a token: the characters on a line, the end of a line, or a quoted template
with what is in it, quotes included. It stands behind a gap, of which it is not a part.
-/
namespace StaticConfig.Lexer

open Text.Quoted (Plain)

/-- What closes the outermost construct that is open. -/
def closing : Frame → List Frame → Char
  | .quoted _ _, [] => '"'
  | .braces _ _ _, [] => '\x7d'
  | _, frame :: outer => closing frame outer

theorem closing_braces (depth depth' l c : Nat) (outer : List Frame) :
    closing (.braces depth l c) outer = closing (.braces depth' l c) outer := by
  cases outer <;> rfl

/-- An end of a line stands only behind a backslash. -/
def Escaped (cs : List Char) : Prop := '\n' ∈ cs → ['\\', '\n'] <:+: cs

theorem Escaped.cons {c : Char} {cs : List Char} (hc : c ≠ '\n') (h : Escaped cs) :
    Escaped (c :: cs) := by
  intro hmem
  have hcs := h ((List.mem_cons.1 hmem).resolve_left hc.symm)
  exact hcs.trans (List.suffix_cons c cs).isInfix

theorem Escaped.escape {c : Char} {cs : List Char} (h : Escaped cs) :
    Escaped ('\\' :: c :: cs) := by
  by_cases hc : c = '\n'
  · intro _
    rw [hc]
    exact (List.prefix_append ['\\', '\n'] cs).isInfix
  · exact (h.cons hc).cons (by decide)

/-- From the text at the offset and the column the lexer has come over what is inside of a template
and the character that closes it, on one line as it counts them. -/
structure Skips (line : Nat) (close : Char) (cs : List Char) (offset col : Nat) (inner : List Char)
    (after : Cursor) : Prop where
  passes : Passes cs offset (inner ++ [close]) after
  escaped : Escaped inner
  line_eq : after.line = line
  col_eq : after.col = col + inner.length + 1

namespace Skips

variable {line offset col : Nat} {close c : Char} {cs inner : List Char} {after : Cursor}

theorem closes (hc : c.toNat ≠ 0) :
    Skips line c (c :: cs) offset col [] ⟨cs, offset + c.utf8Size, line, col + 1⟩ :=
  ⟨.cons hc .refl, nofun, rfl, rfl⟩

theorem cons (hc : c.toNat ≠ 0) (hline : c ≠ '\n')
    (h : Skips line close cs (offset + c.utf8Size) (col + 1) inner after) :
    Skips line close (c :: cs) offset col (c :: inner) after := by
  refine ⟨.cons hc h.passes, h.escaped.cons hline, h.line_eq, ?_⟩
  rw [h.col_eq, List.length_cons]
  omega

/-- Any character may follow a backslash. -/
theorem escape (hc : c.toNat ≠ 0)
    (h : Skips line close cs (offset + 1 + c.utf8Size) (col + 2) inner after) :
    Skips line close ('\\' :: c :: cs) offset col ('\\' :: c :: inner) after := by
  refine ⟨.cons (by decide) (.cons hc h.passes), h.escaped.escape, h.line_eq, ?_⟩
  rw [h.col_eq, List.length_cons, List.length_cons]
  omega

end Skips

theorem skipTemplate_eq_ok {source : Source} {line : Nat} {frame : Frame} {outer : List Frame}
    {cs : List Char} {offset col : Nat} {after : Cursor}
    (h : skipTemplate source line frame outer cs offset col = .ok after) :
    ∃ inner, Skips line (closing frame outer) cs offset col inner after := by
  fun_induction skipTemplate source line frame outer cs offset col with
  | case1 => cases h
  | case2 => cases h
  | case3 => cases h
  | case4 l c outer ch cs offset col hend ih =>
    obtain ⟨inner, hskips⟩ := ih h
    exact ⟨_, hskips.escape hend⟩
  | case5 l c outer cs offset col ih =>
    obtain ⟨inner, hskips⟩ := ih h
    exact ⟨_, .cons (by decide) (by decide) (.cons (by decide) (by decide)
      (.cons (by decide) (by decide) hskips))⟩
  | case6 l c outer cs offset col ih =>
    obtain ⟨inner, hskips⟩ := ih h
    exact ⟨_, .cons (by decide) (by decide) (.cons (by decide) (by decide)
      (.cons (by decide) (by decide) hskips))⟩
  | case7 l c outer cs offset col ih =>
    obtain ⟨inner, hskips⟩ := ih h
    exact ⟨_, (hskips.cons (by decide) (by decide)).cons (by decide) (by decide)⟩
  | case8 l c cs offset col =>
    cases h
    have hquote : ('"' : Char).toNat ≠ 0 := by decide
    exact ⟨[], .closes hquote⟩
  | case9 l c cs offset col frame outer _ _ _ _ ih =>
    obtain ⟨inner, hskips⟩ := ih h
    exact ⟨_, hskips.cons (by decide) (by decide)⟩
  | case10 => cases h
  | case11 l c outer ch cs offset col _ _ _ _ _ hplain ih =>
    obtain ⟨inner, hskips⟩ := ih h
    rw [not_or, not_or] at hplain
    obtain ⟨hend, hnewline, -⟩ := hplain
    exact ⟨_, hskips.cons hend hnewline⟩
  | case12 => cases h
  | case13 depth l c outer cs offset col _ ih =>
    obtain ⟨inner, hskips⟩ := ih h
    exact ⟨_, hskips.cons (by decide) (by decide)⟩
  | case14 depth l c outer cs offset col _ _ ih =>
    obtain ⟨inner, hskips⟩ := ih h
    rw [closing_braces (depth + 1) depth] at hskips
    exact ⟨_, hskips.cons (by decide) (by decide)⟩
  | case15 l c outer cs offset col depth _ _ _ ih =>
    obtain ⟨inner, hskips⟩ := ih h
    rw [closing_braces depth (depth + 1)] at hskips
    exact ⟨_, hskips.cons (by decide) (by decide)⟩
  | case16 l c cs offset col frame outer _ _ _ ih =>
    obtain ⟨inner, hskips⟩ := ih h
    exact ⟨_, hskips.cons (by decide) (by decide)⟩
  | case17 l c cs offset col =>
    cases h
    have hbrace : ('\x7d' : Char).toNat ≠ 0 := by decide
    exact ⟨[], .closes hbrace⟩
  | case18 depth l c outer ch cs offset col hend _ _ _ ih =>
    obtain ⟨inner, hskips⟩ := ih h
    rw [not_or] at hend
    exact ⟨_, hskips.cons hend.1 hend.2⟩

/-- The token as it is written at the offset, with the quotes of a string. -/
inductive Written (t : Token) (offset : Nat) : List Char → Prop
  | bare {cs : List Char} : t.kind ≠ .string → t.span.start = offset →
    t.span.stop = offset + byteLength cs → Written t offset cs
  | quoted {inner : List Char} : t.kind = .string → t.span.start = offset + 1 →
    t.span.stop = offset + 1 + byteLength inner → Written t offset ('"' :: inner ++ ['"'])

/-- The token is what was passed over, and if it is the end token, nothing was left. -/
structure Takes (pos : Cursor) (t : Token) (cs : List Char) (after : Cursor) : Prop where
  passes : Passes pos.rest pos.offset cs after
  written : Written t pos.offset cs
  ends : t.kind = .eof → cs = [] ∧ atEnd after.rest = true
  goes : t.kind ≠ .eof → cs ≠ []

/-- How the token that the cursor stands before is read: from its characters, which are on one line,
as the end of a line, or between quotes. -/
inductive Reading (source : Source) (pos : Cursor) : Token → Cursor → Prop
  | bare {kind : TokenKind} {cs rest : List Char} : kind ≠ .string → kind ≠ .newline →
    pos.rest = cs ++ rest → Plain cs → '\n' ∉ cs → (kind = .eof → cs = [] ∧ atEnd rest = true) →
      (kind ≠ .eof → cs ≠ []) →
        Reading source pos (tokenOf source pos kind cs rest).1 (tokenOf source pos kind cs rest).2
  | newline {rest : List Char} : pos.rest = '\n' :: rest →
    Reading source pos
      ⟨.newline, "\n", ⟨source, pos.line, pos.col, pos.offset, pos.offset + 1⟩⟩
      ⟨rest, pos.offset + 1, pos.line + 1, 1⟩
  | quoted {inner rest : List Char} : pos.rest = '"' :: inner ++ '"' :: rest → Plain inner →
    Escaped inner → Reading source pos
      ⟨.string, String.ofList inner, ⟨source, pos.line, pos.col + 1, pos.offset + 1,
        pos.offset + 1 + byteLength inner⟩⟩
      ⟨rest, pos.offset + byteLength inner + 2, pos.line, pos.col + inner.length + 2⟩

theorem Reading.takes {source : Source} {pos after : Cursor} {t : Token}
    (h : Reading source pos t after) : ∃ taken, Takes pos t taken after := by
  cases h with
  | @bare kind cs rest hstring _ hsplit hplain _ hends hgoes =>
    exact ⟨cs, ⟨hsplit, hplain, rfl⟩, .bare hstring rfl rfl, hends, hgoes⟩
  | newline hsplit =>
    refine ⟨['\n'], ⟨hsplit, ?_, rfl⟩, .bare nofun rfl rfl, nofun, nofun⟩
    decide
  | @quoted inner rest hsplit hplain _ =>
    refine ⟨'"' :: inner ++ ['"'], ⟨?_, ?_, ?_⟩, .quoted rfl rfl rfl, nofun, nofun⟩
    · rw [hsplit]
      simp
    · have hquote : Plain ['"'] := by decide
      exact List.forall_mem_cons.2 ⟨by decide, List.forall_mem_append.2 ⟨hplain, hquote⟩⟩
    · have hquote : byteLength ['"'] = 1 := rfl
      have hfirst : ('"' : Char).utf8Size = 1 := rfl
      rw [List.cons_append, byteLength_cons, byteLength_append, hquote, hfirst]
      change pos.offset + byteLength inner + 2 = _
      omega

theorem not_mem_of_forall {p : Char → Bool} {c : Char} {cs : List Char} (hp : p c = false)
    (h : ∀ d ∈ cs, p d = true) : c ∉ cs := by
  intro hc
  have htrue := h c hc
  rw [hp] at htrue
  cases htrue

theorem plain_of_forall {p : Char → Bool} {cs : List Char} (hp : p '\x00' = false)
    (h : ∀ c ∈ cs, p c = true) : Plain cs := by
  intro c hc hzero
  have hnul : c = '\x00' := Char.toNat_inj.1 hzero
  exact not_mem_of_forall hp h (hnul ▸ hc)

theorem reading_of_readTemplate {source : Source} {pos after : Cursor} {t : Token}
    {cs : List Char} (hpos : pos.rest = '"' :: cs)
    (h : readTemplate source pos cs = .ok (t, after)) : Reading source pos t after := by
  unfold readTemplate at h
  dsimp only at h
  split at h
  · cases h
  · rename_i closed hskip
    cases h
    obtain ⟨inner, ⟨hsplit, hplain, hoffset⟩, hescaped, hline, hcol⟩ := skipTemplate_eq_ok hskip
    have hclosing : closing (.quoted pos.line pos.col) [] = '"' := rfl
    have hquote : byteLength ['"'] = 1 := rfl
    rw [hclosing, byteLength_append, hquote] at hoffset
    rw [hclosing, List.append_assoc] at hsplit
    have hlength : after.offset - 1 - (pos.offset + 1) = byteLength inner := by omega
    have hstop : after.offset - 1 = pos.offset + 1 + byteLength inner := by omega
    have hafter : after = ⟨after.rest, pos.offset + byteLength inner + 2, pos.line,
        pos.col + inner.length + 2⟩ := by
      obtain ⟨rest, offset, line, col⟩ := after
      simp only [Cursor.mk.injEq, true_and] at hoffset hline hcol ⊢
      omega
    rw [hlength, hstop, hsplit, takeBytes_append, hafter]
    refine .quoted (by rw [hpos, hsplit]; rfl) (fun c hc => ?_) hescaped
    exact hplain c (List.mem_append_left _ hc)

theorem split_digits (cs : List Char) :
    cs = (digits cs).1 ++ (digits cs).2 ∧ ∀ c ∈ (digits cs).1, c.isDigit = true :=
  ⟨List.takeWhile_append_dropWhile.symm, fun _ hc => List.mem_takeWhile_imp hc⟩

/-- The characters of a number. -/
def isNumberPart (c : Char) : Bool :=
  c.isDigit || c == '.' || isExponentMark c || isSign c

theorem isNumberPart_of_isDigit {c : Char} (h : c.isDigit = true) : isNumberPart c = true := by
  simp [isNumberPart, h]

theorem split_fraction (cs : List Char) :
    cs = (fraction cs).1 ++ (fraction cs).2 ∧ ∀ c ∈ (fraction cs).1, isNumberPart c = true := by
  unfold fraction
  split
  · rename_i d rest
    split
    · obtain ⟨hsplit, hdigits⟩ := split_digits (d :: rest)
      refine ⟨congrArg ('.' :: ·) hsplit, List.forall_mem_cons.2 ⟨rfl, fun c hc => ?_⟩⟩
      exact isNumberPart_of_isDigit (hdigits c hc)
    · exact ⟨rfl, nofun⟩
  · exact ⟨rfl, nofun⟩

theorem take_filter_isSign (cs : List Char) :
    cs = (cs.take 1).filter isSign ++ cs.drop ((cs.take 1).filter isSign).length := by
  cases cs with
  | nil => rfl
  | cons c cs =>
    cases h : isSign c with
    | true => simp [h]
    | false => simp [h]

theorem split_exponent (cs : List Char) :
    cs = (exponent cs).1 ++ (exponent cs).2.1 ∧ ∀ c ∈ (exponent cs).1, isNumberPart c = true := by
  unfold exponent
  split
  · rename_i e rest
    split
    · rename_i hmark
      let sign := (rest.take 1).filter isSign
      obtain ⟨hsplit, hdigits⟩ := split_digits (rest.drop sign.length)
      constructor
      · change e :: rest = e :: (sign ++ _) ++ _
        rw [List.cons_append, List.append_assoc, ← hsplit]
        exact congrArg (e :: ·) (take_filter_isSign rest)
      · have hsign : ∀ c ∈ sign, isNumberPart c = true := by
          intro c hc
          simp [isNumberPart, (List.mem_filter.1 hc).2]
        have hfirst : isNumberPart e = true := by simp [isNumberPart, hmark]
        refine List.forall_mem_cons.2 ⟨hfirst, List.forall_mem_append.2 ⟨hsign, fun c hc => ?_⟩⟩
        exact isNumberPart_of_isDigit (hdigits c hc)
    · exact ⟨rfl, nofun⟩
  · exact ⟨rfl, nofun⟩

theorem reading_of_readNumber {source : Source} {pos after : Cursor} {t : Token} {c : Char}
    {cs : List Char} (hpos : pos.rest = c :: cs) (hc : c.isDigit = true)
    (h : readNumber source pos = .ok (t, after)) : Reading source pos t after := by
  rw [readNumber] at h
  split_ifs at h
  · cases h
    obtain ⟨hwhole, hdigits⟩ := split_digits pos.rest
    obtain ⟨hfrac, hpoint⟩ := split_fraction (digits pos.rest).2
    obtain ⟨hexpo, hmark⟩ := split_exponent (fraction (digits pos.rest).2).2
    have hparts : ∀ d ∈ (digits pos.rest).1 ++ (fraction (digits pos.rest).2).1 ++
        (exponent (fraction (digits pos.rest).2).2).1, isNumberPart d = true := by
      refine List.forall_mem_append.2 ⟨List.forall_mem_append.2 ⟨fun d hd => ?_, hpoint⟩, hmark⟩
      exact isNumberPart_of_isDigit (hdigits d hd)
    refine .bare nofun nofun ?_ ?_ ?_ nofun fun _ => ?_
    · rw [List.append_assoc, List.append_assoc, ← hexpo, ← hfrac, ← hwhole]
    · exact plain_of_forall rfl hparts
    · exact not_mem_of_forall rfl hparts
    · have hne : (digits pos.rest).1 ≠ [] := by simp [digits, hpos, hc]
      simp [hne]

theorem plain_symbols : ∀ s ∈ symbols, s ≠ [] ∧ Plain s ∧ '\n' ∉ s := by
  decide

theorem prefix_of_symbolAt {cs s : List Char} (h : symbolAt cs = some s) :
    s ≠ [] ∧ Plain s ∧ '\n' ∉ s ∧ s <+: cs := by
  unfold symbolAt at h
  obtain ⟨hne, hplain, hnewline⟩ := plain_symbols s (List.mem_of_find?_eq_some h)
  have hfound := List.find?_some h
  exact ⟨hne, hplain, hnewline, List.isPrefixOf_iff_prefix.1 hfound⟩

theorem reading_of_readToken {source : Source} {pos after : Cursor} {t : Token}
    (h : readToken source pos = .ok (t, after)) : Reading source pos t after := by
  unfold readToken at h
  split at h
  · rename_i hpos
    cases h
    exact .bare nofun nofun hpos nofun nofun (fun _ => ⟨rfl, rfl⟩) fun hne => absurd rfl hne
  · rename_i c cs hpos
    split at h
    · rename_i hend
      cases h
      refine .bare nofun nofun hpos nofun nofun (fun _ => ⟨rfl, ?_⟩) fun hne => absurd rfl hne
      exact beq_iff_eq.2 hend
    · rename_i hend
      split at h
      · rename_i hline
        subst hline
        cases h
        exact .newline hpos
      · split at h
        · rename_i hquote
          subst hquote
          exact reading_of_readTemplate hpos h
        · split at h
          · rename_i s hsymbol
            cases h
            obtain ⟨hne, hplain, hnewline, hprefix⟩ := prefix_of_symbolAt hsymbol
            refine .bare nofun nofun ?_ hplain hnewline nofun fun _ => hne
            rw [hpos]
            exact (List.prefix_iff_eq_append.1 hprefix).symm
          · split at h
            · rename_i hdigit
              exact reading_of_readNumber hpos hdigit h
            · split at h
              · rename_i hstart
                cases h
                have hparts : ∀ d ∈ (c :: cs).takeWhile Text.isIdentifierPart,
                    Text.isIdentifierPart d = true := fun d hd => List.mem_takeWhile_imp hd
                refine .bare nofun nofun ?_ ?_ ?_ nofun fun _ => ?_
                · rw [hpos, List.takeWhile_append_dropWhile]
                · exact plain_of_forall (by decide) hparts
                · exact not_mem_of_forall (by decide) hparts
                · have hpart := Text.isIdentifierPart_of_start hstart
                  simp [hpart]
              · cases h

theorem takes_of_readToken {source : Source} {pos after : Cursor} {t : Token}
    (h : readToken source pos = .ok (t, after)) : ∃ taken, Takes pos t taken after :=
  (reading_of_readToken h).takes

/-- How the next token is read: behind a gap, of which it is not a part. -/
theorem reading_of_next {source : Source} {pos after : Cursor} {t : Token}
    (h : next source pos = .ok (t, after)) :
    ∃ gap middle, Gapped pos gap middle ∧ Reading source middle t after := by
  obtain ⟨middle, hgap, htoken⟩ := Except.bind_eq_ok.1 h
  obtain ⟨gap, hgapped⟩ := gapped_of_skipGap hgap
  exact ⟨gap, middle, hgapped, reading_of_readToken htoken⟩

theorem takes_of_next {source : Source} {pos after : Cursor} {t : Token}
    (h : next source pos = .ok (t, after)) :
    ∃ gap middle taken, Passes pos.rest pos.offset gap middle ∧ Skipped gap ∧
      Takes middle t taken after := by
  obtain ⟨gap, middle, hgapped, hreading⟩ := reading_of_next h
  obtain ⟨taken, htakes⟩ := hreading.takes
  exact ⟨gap, middle, taken, hgapped.passes, hgapped.skipped, htakes⟩

end StaticConfig.Lexer
