import StaticConfig.Proofs.Reading.Consumed

/-!
What becomes of the characters of a source. The tokens up to the end token stand one after the
other, and what lies between them is blank, a comment, or a quote. The character NUL stands for the
end: from there on a source is not read, and this is how characters get lost.
-/
namespace StaticConfig

open Text.Quoted (Plain)

namespace Token

/-- Where the token begins as it is written, with its quotes. -/
def writtenStart (t : Token) : Nat :=
  if t.kind = .string then t.span.start - 1 else t.span.start

/-- Where the token ends as it is written, with its quotes. -/
def writtenStop (t : Token) : Nat :=
  if t.kind = .string then t.span.stop + 1 else t.span.stop

end Token

namespace Lexer

/-- The tokens that are read one after the other, up to the end token. -/
inductive Reads (source : Source) : Cursor → List Token → Prop
  | ends {pos after : Cursor} {t : Token} :
    next source pos = .ok (t, after) → t.kind = .eof → Reads source pos [t]
  | more {pos after : Cursor} {t : Token} {toks : List Token} :
    next source pos = .ok (t, after) → t.kind ≠ .eof → Reads source after toks →
      Reads source pos (t :: toks)

/-- A character of the text begins at the place, or the text ends there. The text itself begins at
the offset. -/
def Boundary (offset : Nat) (cs : List Char) (place : Nat) : Prop :=
  ∃ before, before <+: cs ∧ place = offset + byteLength before

/-- Why the character that follows `before` is in no token. -/
inductive Dropped (offset : Nat) (cs : List Char) (toks : List Token) (before : List Char)
    (c : Char) : Prop
  | blank : c ∈ blanks → Dropped offset cs toks before c
  /-- It belongs to a comment that no token overlaps. -/
  | comment {front text back : List Char} : cs = front ++ text ++ back → Comment text →
    front.length ≤ before.length → before.length < (front ++ text).length →
      (∀ t ∈ toks, t.writtenStop ≤ offset + byteLength front ∨
        offset + byteLength (front ++ text) ≤ t.writtenStart) →
          Dropped offset cs toks before c
  /-- It is a quote right before or after the range of a string. -/
  | quote {t : Token} : t ∈ toks → t.kind = .string → c = '"' →
    offset + byteLength before + 1 = t.span.start ∨ offset + byteLength before = t.span.stop →
      Dropped offset cs toks before c

/-- The tokens keep all of the text that begins at the offset. -/
structure Keeps (offset : Nat) (cs : List Char) (toks : List Token) : Prop where
  increasing : toks.Pairwise fun a b => a.span.start < b.span.start
  disjoint : toks.Pairwise fun a b => a.span.stop ≤ b.span.start
  ranges : ∀ t ∈ toks, t.span.start ≤ t.span.stop ∧ Boundary offset cs t.span.start ∧
    Boundary offset cs t.span.stop
  outside : ∀ before c after, cs = before ++ c :: after →
    (∀ t ∈ toks, ¬(t.span.start ≤ offset + byteLength before ∧
      offset + byteLength before < t.span.stop)) → Dropped offset cs toks before c
  ends : ∃ t, toks.getLast? = some t ∧ t.kind = .eof ∧ t.span.start = offset + byteLength cs ∧
    t.span.stop = offset + byteLength cs

/-- No part of the source is lost in the tokens. -/
def Lossless (source : Source) (toks : List Token) : Prop :=
  Keeps 0 source.text.toList toks

/-- The text that begins at the offset, divided into gaps and tokens as they are written. -/
inductive Tiles : Nat → List Char → List Token → Prop
  | ends {offset : Nat} {gap : List Char} {t : Token} : Skipped gap → t.kind = .eof →
    Written t (offset + byteLength gap) [] → Tiles offset gap [t]
  | more {offset : Nat} {gap taken rest : List Char} {t : Token} {toks : List Token} :
    Skipped gap → taken ≠ [] → Written t (offset + byteLength gap) taken →
      Tiles (offset + byteLength (gap ++ taken)) rest toks →
        Tiles offset (gap ++ taken ++ rest) (t :: toks)

theorem tiles_of_reads {source : Source} {pos : Cursor} {toks : List Token}
    (h : Reads source pos toks) :
    ∃ passed after, Passes pos.rest pos.offset passed after ∧ Tiles pos.offset passed toks ∧
      atEnd after.rest = true := by
  induction h with
  | ends hnext hend =>
    obtain ⟨gap, middle, taken, hgap, hskipped, htakes⟩ := takes_of_next hnext
    obtain ⟨rfl, hatEnd⟩ := htakes.ends hend
    have hwritten := htakes.written
    rw [hgap.offset_eq] at hwritten
    have hpasses := hgap.trans htakes.passes
    rw [List.append_nil] at hpasses
    exact ⟨gap, _, hpasses, .ends hskipped hend hwritten, hatEnd⟩
  | more hnext hgoes _ ih =>
    obtain ⟨gap, middle, taken, hgap, hskipped, htakes⟩ := takes_of_next hnext
    obtain ⟨rest, after, hrest, htiles, hatEnd⟩ := ih
    have hpasses := hgap.trans htakes.passes
    rw [hpasses.offset_eq] at htiles
    have hwritten := htakes.written
    rw [hgap.offset_eq] at hwritten
    exact ⟨_, after, hpasses.trans hrest, .more hskipped (htakes.goes hgoes) hwritten htiles,
      hatEnd⟩

/-! Where a token that is written somewhere has its range. -/

theorem byteLength_pos {cs : List Char} (h : cs ≠ []) : 0 < byteLength cs := by
  cases cs with
  | nil => exact absurd rfl h
  | cons c cs =>
    have hc := c.utf8Size_pos
    rw [byteLength_cons]
    omega

theorem byteLength_quoted (inner : List Char) :
    byteLength ('"' :: inner ++ ['"']) = byteLength inner + 2 := by
  have hquote : byteLength ['"'] = 1 := rfl
  have hfirst : ('"' : Char).utf8Size = 1 := rfl
  rw [List.cons_append, byteLength_cons, byteLength_append, hquote, hfirst]
  omega

section Written

variable {t : Token} {offset : Nat} {cs : List Char}

theorem Written.writtenStart_eq (h : Written t offset cs) : t.writtenStart = offset := by
  unfold Token.writtenStart
  cases h with
  | bare hkind hstart _ => rw [if_neg hkind, hstart]
  | quoted hkind hstart _ => rw [if_pos hkind, hstart, Nat.add_sub_cancel]

theorem Written.writtenStop_eq (h : Written t offset cs) :
    t.writtenStop = offset + byteLength cs := by
  unfold Token.writtenStop
  cases h with
  | bare hkind _ hstop => rw [if_neg hkind, hstop]
  | quoted hkind _ hstop =>
    rw [if_pos hkind, hstop, byteLength_quoted]
    omega

theorem Written.range (h : Written t offset cs) :
    offset ≤ t.span.start ∧ t.span.start ≤ t.span.stop ∧ t.span.stop ≤ offset + byteLength cs := by
  cases h with
  | bare _ hstart hstop =>
    rw [hstart, hstop]
    omega
  | quoted _ hstart hstop =>
    rw [hstart, hstop, byteLength_quoted]
    omega

theorem Written.start_lt (h : Written t offset cs) (hne : cs ≠ []) :
    t.span.start < offset + byteLength cs := by
  have hpos := byteLength_pos hne
  cases h with
  | bare _ hstart _ => omega
  | @quoted inner _ hstart _ =>
    rw [hstart, byteLength_quoted]
    omega

/-- The ends of the range are places in what is written. -/
theorem Written.boundaries (h : Written t offset cs) :
    Boundary offset cs t.span.start ∧ Boundary offset cs t.span.stop := by
  cases h with
  | bare _ hstart hstop => exact ⟨⟨[], List.nil_prefix, hstart⟩, ⟨cs, List.prefix_rfl, hstop⟩⟩
  | @quoted inner _ hstart hstop =>
    have hfirst : ('"' : Char).utf8Size = 1 := rfl
    refine ⟨⟨['"'], ⟨inner ++ ['"'], rfl⟩, hstart⟩, ⟨'"' :: inner, ⟨['"'], rfl⟩, ?_⟩⟩
    rw [hstop, byteLength_cons, hfirst]
    omega

/-- A character that is written is in the range, or it is a quote next to it. -/
theorem Written.covers (h : Written t offset cs) {before after : List Char} {c : Char}
    (hcs : cs = before ++ c :: after) :
    (t.span.start ≤ offset + byteLength before ∧ offset + byteLength before < t.span.stop) ∨
      t.kind = .string ∧ c = '"' ∧ (offset + byteLength before + 1 = t.span.start ∨
        offset + byteLength before = t.span.stop) := by
  have hc := c.utf8Size_pos
  cases h with
  | bare _ hstart hstop =>
    left
    rw [hstart, hstop, hcs, byteLength_append, byteLength_cons]
    omega
  | @quoted inner hkind hstart hstop =>
    have hfirst : ('"' : Char).utf8Size = 1 := rfl
    cases before with
    | nil =>
      obtain ⟨rfl, -⟩ := List.cons.inj hcs
      exact .inr ⟨hkind, rfl, .inl hstart.symm⟩
    | cons d before =>
      obtain ⟨rfl, hrest⟩ := List.cons.inj hcs
      have hinner : inner ++ ['"'] = before ++ c :: after := hrest
      rw [byteLength_cons, hfirst]
      rcases List.eq_nil_or_concat after with rfl | ⟨after, last, rfl⟩
      · obtain ⟨rfl, hlast⟩ := List.append_inj' hinner rfl
        cases hlast
        right
        exact ⟨hkind, rfl, .inr (by omega)⟩
      · left
        have hsplit : inner = before ++ c :: after := by
          have hconcat : inner ++ ['"'] = (before ++ c :: after) ++ [last] := by
            rw [hinner]
            simp
          exact (List.append_inj' hconcat rfl).1
        rw [hstart, hstop, hsplit, byteLength_append, byteLength_cons]
        omega

end Written

/-! The characters of gaps. -/

/-- A character of two texts one after the other is in the first or in the second one. -/
theorem character_of_append {front back before after : List Char} {c : Char}
    (h : front ++ back = before ++ c :: after) :
    (∃ rest, front = before ++ c :: rest) ∨
      ∃ more, before = front ++ more ∧ back = more ++ c :: after := by
  rcases List.append_eq_append_iff.1 h with ⟨more, hbefore, hback⟩ | ⟨more, hfront, hafter⟩
  · exact .inr ⟨more, hbefore, hback⟩
  · cases more with
    | nil => exact .inr ⟨[], by simpa using hfront.symm, by simpa using hafter.symm⟩
    | cons d more =>
      obtain ⟨rfl, -⟩ := List.cons.inj hafter
      exact .inl ⟨more, hfront⟩

/-- A character of a gap is blank or in a comment. -/
theorem Skipped.character {gap : List Char} (h : Skipped gap) {before after : List Char} {c : Char}
    (hgap : gap = before ++ c :: after) : c ∈ blanks ∨
      ∃ front text back, gap = front ++ text ++ back ∧ Comment text ∧
        front.length ≤ before.length ∧ before.length < (front ++ text).length := by
  induction h generalizing before with
  | nil => simp at hgap
  | @blank d cs hd _ ih =>
    cases before with
    | nil =>
      obtain ⟨rfl, -⟩ := List.cons.inj hgap
      exact .inl hd
    | cons e before =>
      obtain ⟨rfl, hcs⟩ := List.cons.inj hgap
      refine (ih hcs).imp_right ?_
      rintro ⟨front, text, back, hsplit, hcomment, hfront, hback⟩
      refine ⟨d :: front, text, back, by rw [hsplit]; simp, hcomment, ?_, ?_⟩
      · simpa using hfront
      · simpa using hback
  | @comment text cs hcomment _ ih =>
    by_cases hlength : before.length < text.length
    · exact .inr ⟨[], text, cs, rfl, hcomment, Nat.zero_le _, hlength⟩
    · obtain ⟨more, hbefore, hcs⟩ := (character_of_append hgap).resolve_left fun hfirst => by
        obtain ⟨more, htext⟩ := hfirst
        rw [htext, List.length_append, List.length_cons] at hlength
        omega
      refine (ih hcs).imp_right ?_
      rintro ⟨front, text', back, hsplit, hcomment', hfront, hback⟩
      refine ⟨text ++ front, text', back, by rw [hsplit]; simp, hcomment', ?_, ?_⟩
      · simpa [hbefore] using hfront
      · simp only [hbefore, List.length_append] at hback ⊢
        omega

/-! From the tiles to what they say about the source. -/

theorem Tiles.within {offset : Nat} {cs : List Char} {toks : List Token}
    (h : Tiles offset cs toks) :
    ∀ t ∈ toks, offset ≤ t.writtenStart ∧ t.writtenStart ≤ t.span.start := by
  induction h with
  | ends _ _ hwritten =>
    intro t ht
    cases List.mem_singleton.1 ht
    have hrange := hwritten.range
    rw [hwritten.writtenStart_eq]
    omega
  | more _ _ hwritten _ ih =>
    intro t ht
    rcases List.mem_cons.1 ht with rfl | ht
    · have hrange := hwritten.range
      rw [hwritten.writtenStart_eq]
      omega
    · have hlater := ih t ht
      rw [byteLength_append] at hlater
      omega

theorem Boundary.prepend {offset place : Nat} {w cs : List Char}
    (h : Boundary (offset + byteLength w) cs place) : Boundary offset (w ++ cs) place := by
  obtain ⟨before, hprefix, hplace⟩ := h
  refine ⟨w ++ before, (List.prefix_append_right_inj w).2 hprefix, ?_⟩
  rw [hplace, byteLength_append, Nat.add_assoc]

theorem Boundary.append {offset place : Nat} {cs : List Char} (h : Boundary offset cs place)
    (more : List Char) : Boundary offset (cs ++ more) place := by
  obtain ⟨before, hprefix, hplace⟩ := h
  exact ⟨before, hprefix.trans (List.prefix_append cs more), hplace⟩

/-- A character that is dropped further on is dropped, whatever is written before. -/
theorem Dropped.prepend {offset : Nat} {w cs before : List Char} {t : Token} {toks : List Token}
    {c : Char} (ht : t.writtenStop ≤ offset + byteLength w)
    (h : Dropped (offset + byteLength w) cs toks before c) :
    Dropped offset (w ++ cs) (t :: toks) (w ++ before) c := by
  cases h with
  | blank hc => exact .blank hc
  | @comment front text back hsplit hcomment hfront hback hapart =>
    have hplace (ds : List Char) : offset + byteLength (w ++ ds) =
        offset + byteLength w + byteLength ds := by
      rw [byteLength_append, Nat.add_assoc]
    have hsplit' : w ++ cs = (w ++ front) ++ text ++ back := by
      rw [hsplit]
      simp
    refine .comment hsplit' hcomment ?_ ?_ ?_
    · simpa using hfront
    · simpa [List.append_assoc] using hback
    · refine List.forall_mem_cons.2 ⟨.inl ?_, fun u hu => ?_⟩
      · rw [hplace]
        omega
      · rw [List.append_assoc, hplace, hplace]
        exact hapart u hu
  | quote hmem hkind hc hplace =>
    refine .quote (List.mem_cons_of_mem t hmem) hkind hc ?_
    rw [byteLength_append, ← Nat.add_assoc]
    exact hplace

/-- A character of the gap before the tokens is dropped. -/
theorem Skipped.dropped {offset : Nat} {gap rest before after : List Char} {toks : List Token}
    {c : Char} (h : Skipped gap) (hgap : gap = before ++ c :: after)
    (htoks : ∀ t ∈ toks, offset + byteLength gap ≤ t.writtenStart) :
    Dropped offset (gap ++ rest) toks before c := by
  rcases h.character hgap with hblank | ⟨front, text, back, hsplit, hcomment, hfront, hback⟩
  · exact .blank hblank
  · have hsplit' : gap ++ rest = front ++ text ++ (back ++ rest) := by
      rw [hsplit, List.append_assoc]
    refine .comment hsplit' hcomment hfront hback fun t ht => .inr ?_
    have hstart := htoks t ht
    rw [hsplit, byteLength_append] at hstart
    omega

/-- A character of a token is in its range, or it is a quote. -/
theorem Written.dropped {offset : Nat} {gap taken rest more after : List Char} {t : Token}
    {toks : List Token} {c : Char} (h : Written t (offset + byteLength gap) taken)
    (htaken : taken = more ++ c :: after) (hout : ¬(t.span.start ≤
      offset + byteLength (gap ++ more) ∧ offset + byteLength (gap ++ more) < t.span.stop)) :
    Dropped offset (gap ++ taken ++ rest) (t :: toks) (gap ++ more) c := by
  have hplace : offset + byteLength (gap ++ more) = offset + byteLength gap + byteLength more := by
    rw [byteLength_append, Nat.add_assoc]
  rw [hplace] at hout
  obtain ⟨hkind, hc, hquote⟩ := (h.covers htaken).resolve_left hout
  refine .quote List.mem_cons_self hkind hc ?_
  rw [hplace]
  exact hquote

/-- A character in a gap, of the token behind it, or of the text behind the token, that is in no
range is dropped. -/
theorem Written.dropped_of_outside {offset : Nat} {gap taken rest before after : List Char}
    {t : Token} {toks : List Token} {c : Char} (h : Written t (offset + byteLength gap) taken)
    (hskipped : Skipped gap) (htiles : Tiles (offset + byteLength (gap ++ taken)) rest toks)
    (hrest : Keeps (offset + byteLength (gap ++ taken)) rest toks)
    (hsplit : gap ++ taken ++ rest = before ++ c :: after)
    (hout : ∀ u ∈ t :: toks, ¬(u.span.start ≤ offset + byteLength before ∧
      offset + byteLength before < u.span.stop)) :
    Dropped offset (gap ++ taken ++ rest) (t :: toks) before c := by
  have hlength : offset + byteLength gap + byteLength taken =
      offset + byteLength (gap ++ taken) := by
    rw [byteLength_append, Nat.add_assoc]
  obtain ⟨hself, hothers⟩ := List.forall_mem_cons.1 hout
  rcases character_of_append hsplit with ⟨_, hfront⟩ | ⟨more, rfl, hbehind⟩
  · rcases character_of_append hfront with ⟨_, hgap⟩ | ⟨more, rfl, htaken⟩
    · have hstarts : ∀ u ∈ t :: toks, offset + byteLength gap ≤ u.writtenStart := by
        refine List.forall_mem_cons.2 ⟨h.writtenStart_eq.ge, fun u hu => ?_⟩
        have hwithin := htiles.within u hu
        omega
      rw [List.append_assoc]
      exact hskipped.dropped hgap hstarts
    · exact h.dropped htaken hself
  · have hstop : t.writtenStop ≤ offset + byteLength (gap ++ taken) := by
      rw [h.writtenStop_eq, hlength]
    refine (hrest.outside more c after hbehind fun u hu => ?_).prepend hstop
    have hout := hothers u hu
    rw [byteLength_append, ← Nat.add_assoc] at hout
    exact hout

theorem keeps_of_tiles {offset : Nat} {cs : List Char} {toks : List Token}
    (h : Tiles offset cs toks) : Keeps offset cs toks := by
  induction h with
  | @ends offset gap t hskipped hend hwritten =>
    have hrange := hwritten.range
    have hnone : byteLength [] = 0 := rfl
    have hstart : t.span.start = offset + byteLength gap := by omega
    have hstop : t.span.stop = offset + byteLength gap := by omega
    have hboundary : Boundary offset gap (offset + byteLength gap) := ⟨gap, List.prefix_rfl, rfl⟩
    refine ⟨List.pairwise_singleton _ _, List.pairwise_singleton _ _, ?_, ?_, ?_⟩
    · refine List.forall_mem_singleton.2 ⟨by omega, ?_, ?_⟩
      · rwa [hstart]
      · rwa [hstop]
    · intro before c after hgap _
      have hlater : ∀ u ∈ [t], offset + byteLength gap ≤ u.writtenStart :=
        List.forall_mem_singleton.2 hwritten.writtenStart_eq.ge
      have hdropped : Dropped offset (gap ++ []) [t] before c := hskipped.dropped hgap hlater
      rwa [List.append_nil] at hdropped
    · exact ⟨t, rfl, hend, hstart, hstop⟩
  | @more offset gap taken rest t toks hskipped hne hwritten htiles ih =>
    have hlength : offset + byteLength gap + byteLength taken =
        offset + byteLength (gap ++ taken) := by
      rw [byteLength_append, Nat.add_assoc]
    have hlater (u : Token) (hu : u ∈ toks) :
        offset + byteLength (gap ++ taken) ≤ u.span.start := by
      have hwithin := htiles.within u hu
      omega
    have hrange := hwritten.range
    have hbefore := hwritten.start_lt hne
    rw [hlength] at hrange hbefore
    refine ⟨?_, ?_, ?_, ?_, ?_⟩
    · refine List.pairwise_cons.2 ⟨fun u hu => ?_, ih.increasing⟩
      have hu := hlater u hu
      omega
    · refine List.pairwise_cons.2 ⟨fun u hu => ?_, ih.disjoint⟩
      have hu := hlater u hu
      omega
    · obtain ⟨hstart, hstop⟩ := hwritten.boundaries
      refine List.forall_mem_cons.2 ⟨⟨by omega, hstart.prepend.append rest,
        hstop.prepend.append rest⟩, fun u hu => ?_⟩
      obtain ⟨hle, hstart, hstop⟩ := ih.ranges u hu
      exact ⟨hle, hstart.prepend, hstop.prepend⟩
    · exact fun before c after => hwritten.dropped_of_outside hskipped htiles ih
    · obtain ⟨u, hlast, hend, hstart, hstop⟩ := ih.ends
      have hplace : offset + byteLength (gap ++ taken ++ rest) =
          offset + byteLength (gap ++ taken) + byteLength rest := by
        rw [byteLength_append (gap ++ taken), Nat.add_assoc]
      refine ⟨u, ?_, hend, by rw [hstart, hplace], by rw [hstop, hplace]⟩
      rw [List.getLast?_cons, hlast]
      rfl

/-- The tokens of a source up to the end token lose nothing exactly if no character stands for
the end in its midst. -/
theorem lossless_of_reads {source : Source} {toks : List Token}
    (h : Reads source (.ofSource source) toks) :
    Lossless source toks ↔ '\x00' ∉ source.text.toList := by
  obtain ⟨passed, after, hpasses, htiles, hatEnd⟩ := tiles_of_reads h
  have hkeeps := keeps_of_tiles htiles
  have hsplit : source.text.toList = passed ++ after.rest := hpasses.split
  have hnul : ('\x00' : Char).toNat = 0 := rfl
  constructor
  · intro hlossless
    obtain ⟨t, hlast, -, hstart, -⟩ := hlossless.ends
    obtain ⟨u, hlast', -, hstart', -⟩ := hkeeps.ends
    rw [hlast] at hlast'
    cases hlast'
    have hrest : after.rest = [] := by
      by_contra hne
      have hpos := byteLength_pos hne
      have hoffset : (Cursor.ofSource source).offset = 0 := rfl
      rw [hstart', hsplit, byteLength_append, hoffset] at hstart
      omega
    rw [hsplit, hrest, List.append_nil]
    exact fun hmem => hpasses.plain _ hmem hnul
  · intro hfree
    have hrest : after.rest = [] := by
      cases hcs : after.rest with
      | nil => rfl
      | cons c cs =>
        rw [hcs] at hatEnd hsplit
        have hc : c = '\x00' := Char.toNat_inj.1 (eq_of_beq hatEnd)
        rw [hsplit, hc] at hfree
        exact absurd (List.mem_append_right _ List.mem_cons_self) hfree
    rw [hrest, List.append_nil] at hsplit
    unfold Lossless
    rw [hsplit]
    exact hkeeps

theorem skipGap_of_atEnd {cs : List Char} (h : atEnd cs = true) (source : Source)
    (offset line col : Nat) :
    skipGap source .blank cs offset line col = .ok ⟨cs, offset, line, col⟩ := by
  cases cs with
  | nil => rfl
  | cons c cs =>
    have hc : c = '\x00' := Char.toNat_inj.1 (eq_of_beq h)
    subst hc
    rfl

theorem readToken_of_atEnd {pos : Cursor} (h : atEnd pos.rest = true) (source : Source) :
    readToken source pos = .ok (tokenOf source pos .eof [] pos.rest) := by
  unfold readToken
  cases hrest : pos.rest with
  | nil => rfl
  | cons c cs =>
    rw [hrest] at h
    exact if_pos (eq_of_beq h)

theorem next_of_atEnd {pos : Cursor} (h : atEnd pos.rest = true) (source : Source) :
    next source pos = .ok (tokenOf source pos .eof [] pos.rest) := by
  unfold next
  rw [skipGap_of_atEnd h]
  exact readToken_of_atEnd h source

/-- At the end the next token is the end token, again and again. -/
theorem next_of_eof {source : Source} {pos after : Cursor} {t : Token}
    (h : next source pos = .ok (t, after)) (ht : t.kind = .eof) :
    next source after = .ok (t, after) := by
  obtain ⟨middle, hgap, htoken⟩ := Except.bind_eq_ok.1 h
  obtain ⟨taken, htakes⟩ := takes_of_readToken htoken
  obtain ⟨rfl, hatEnd⟩ := htakes.ends ht
  have hsplit : middle.rest = after.rest := htakes.passes.split
  rw [← hsplit] at hatEnd
  rw [readToken_of_atEnd hatEnd] at htoken
  have hsame : after = middle := by
    cases htoken
    rfl
  rw [hsame, next_of_atEnd hatEnd, htoken, hsame]

/-- The token has been reached from the start of the source, and the cursor stands behind it. -/
inductive Reached (source : Source) : Token → Cursor → Prop
  | first {t : Token} {after : Cursor} :
    next source (.ofSource source) = .ok (t, after) → Reached source t after
  | more {t t' : Token} {pos after : Cursor} : Reached source t pos → t.kind ≠ .eof →
    next source pos = .ok (t', after) → Reached source t' after

theorem Reached.next {source : Source} {t t' : Token} {pos after : Cursor}
    (h : Reached source t pos) (hnext : next source pos = .ok (t', after)) :
    Reached source t' after := by
  by_cases ht : t.kind = .eof
  · have hsame : Lexer.next source pos = .ok (t, pos) := by
      cases h with
      | first hfirst => exact next_of_eof hfirst ht
      | more _ _ hlast => exact next_of_eof hlast ht
    rw [hsame] at hnext
    cases hnext
    exact h
  · exact .more h ht hnext

/-- Where the end token is reached, the tokens up to there have been read. -/
theorem reads_of_reached {source : Source} {t : Token} {after : Cursor}
    (h : Reached source t after) (ht : t.kind = .eof) :
    ∃ toks, Reads source (.ofSource source) toks ∧ toks.getLast? = some t := by
  have hfront : ∃ front, (t.kind = .eof → Reads source (.ofSource source) (front ++ [t])) ∧
      (t.kind ≠ .eof → ∀ toks, Reads source after toks →
        Reads source (.ofSource source) (front ++ t :: toks)) := by
    clear ht
    induction h with
    | first hfirst =>
      exact ⟨[], fun hend => .ends hfirst hend, fun hgoes toks htoks => .more hfirst hgoes htoks⟩
    | @more t t' pos after _ hgoes hnext ih =>
      obtain ⟨front, -, hmore⟩ := ih
      refine ⟨front ++ [t], fun hend => ?_, fun hgoes' toks htoks => ?_⟩
      · have hreads := hmore hgoes _ (.ends hnext hend)
        rwa [List.append_cons] at hreads
      · have hreads := hmore hgoes _ (.more hnext hgoes' htoks)
        rwa [List.append_cons] at hreads
  obtain ⟨front, hend, -⟩ := hfront
  exact ⟨front ++ [t], hend ht, List.getLast?_concat⟩

end Lexer

end StaticConfig
