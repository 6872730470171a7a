import StaticConfig.Proofs.Reading.Stands

/-!
Where the interpolations of a template begin. The reader of a template goes over its text with the
offsets that the characters have in the source, so the lexer of an interpolation begins right behind
the mark that opens it. The text that it finds does not depend on the offsets.
-/
namespace StaticConfig

namespace Text

theorem utf8Size_of_digitValue {c : Char} (h : digitValue c < 16) : c.utf8Size = 1 := by
  rw [Char.utf8Size_eq_one_iff]
  unfold digitValue at h
  split at h
  · next hdigit =>
    simp only [Char.isDigit, Bool.and_eq_true, decide_eq_true_eq] at hdigit
    exact UInt32.le_trans hdigit.2 (by decide)
  · split at h
    · next hlower =>
      have hlast := of_decide_eq_true (Bool.and_eq_true_iff.1 hlower).2
      exact UInt32.le_trans hlast (by decide)
    · split at h
      · next hupper =>
        have hrange := of_decide_eq_true hupper
        exact UInt32.le_trans hrange.2 (by decide)
      · omega

theorem byteLength_of_readNat {cs : List Char} {acc n : Nat} (h : readNat 16 acc cs = some n) :
    byteLength cs = cs.length := by
  induction cs generalizing acc with
  | nil => rfl
  | cons c cs ih =>
    rw [readNat] at h
    split at h
    · next hdigit =>
      rw [byteLength_cons, utf8Size_of_digitValue hdigit, ih h, List.length_cons, Nat.add_comm]
    · cases h

end Text

namespace Parser

theorem byteLength_of_codePoint? {cs : List Char} {c : Char} (h : codePoint? cs = some c) :
    byteLength cs = cs.length := by
  unfold codePoint? at h
  split at h
  · next n hn => exact Text.byteLength_of_readNat hn
  · cases h

theorem utf8Size_of_escaped? {c d : Char} (h : escaped? c = some d) : c.utf8Size = 1 := by
  unfold escaped? at h
  split_ifs at h with hn hr ht hq hb
  · rw [hn]
    rfl
  · rw [hr]
    rfl
  · rw [ht]
    rfl
  · rw [hq]
    rfl
  · rw [hb]
    rfl

/-- The characters from the offset on, up to a mark of an interpolation, behind which the others
stand. -/
structure Marks (cs : List Char) (offset : Nat) (passed rest : List Char) (place : Nat) :
    Prop where
  split : cs = passed ++ rest
  mark : ['$', '\x7b'] <:+ passed
  place_eq : place = offset + byteLength passed

theorem Marks.prepend {cs passed rest before : List Char} {offset place size : Nat}
    (hbefore : byteLength before = size) (h : Marks cs (offset + size) passed rest place) :
    Marks (before ++ cs) offset (before ++ passed) rest place := by
  refine ⟨by rw [h.split, List.append_assoc], ?_, ?_⟩
  · exact h.mark.trans (List.suffix_append before passed)
  · rw [h.place_eq, byteLength_append, hbefore, Nat.add_assoc]

/-- A reader that puts text before what it reads from a later place on ends where that ends. -/
theorem exists_marks_of_prepend {x : Except SyntaxError Chunk} {text cs rest before : List Char}
    {offset place size : Nat} {chunk : Chunk} (hbefore : byteLength before = size)
    (h : x.map (Chunk.prepend text) = .ok chunk) (hrest : chunk.rest = some (rest, place))
    (hx : ∀ {c : Chunk}, x = .ok c → c.rest = some (rest, place) →
      ∃ passed, Marks cs (offset + size) passed rest place) :
    ∃ passed, Marks (before ++ cs) offset passed rest place := by
  obtain ⟨c, hc, rfl⟩ := Except.map_eq_ok.1 h
  obtain ⟨passed, hmarks⟩ := hx hc hrest
  exact ⟨before ++ passed, hmarks.prepend hbefore⟩

/-- A reader that ends at an interpolation has come over its mark. -/
theorem marks_of_readChunk {span : Span} {cs rest : List Char} {offset place : Nat} {chunk : Chunk}
    (h : readChunk span cs offset = .ok chunk) (hrest : chunk.rest = some (rest, place)) :
    ∃ passed, Marks cs offset passed rest place := by
  have hslash (ds : List Char) (c : Char) (hc : c.utf8Size = 1) :
      byteLength ('\\' :: c :: ds) = byteLength ds + 2 := by
    have hfirst : ('\\' : Char).utf8Size = 1 := rfl
    rw [byteLength_cons, byteLength_cons, hc, hfirst]
    omega
  fun_induction readChunk span cs offset generalizing chunk with
  | case1 =>
    cases h
    cases hrest
  | case2 a b c d cs offset ch hch ih =>
    have hlength : byteLength ['\\', 'u', a, b, c, d] = 6 := by
      rw [hslash _ _ rfl, byteLength_of_codePoint? hch]
      rfl
    exact exists_marks_of_prepend hlength h hrest ih
  | case3 => cases h
  | case4 a b c d e f g h' cs offset ch hch ih =>
    have hlength : byteLength ['\\', 'U', a, b, c, d, e, f, g, h'] = 10 := by
      rw [hslash _ _ rfl, byteLength_of_codePoint? hch]
      rfl
    exact exists_marks_of_prepend hlength h hrest ih
  | case5 => cases h
  | case6 cs offset ih =>
    have hlength : byteLength ['$', '$', '\x7b'] = 3 := rfl
    exact exists_marks_of_prepend hlength h hrest ih
  | case7 cs offset ih =>
    have hlength : byteLength ['%', '%', '\x7b'] = 3 := rfl
    exact exists_marks_of_prepend hlength h hrest ih
  | case8 => cases h
  | case9 cs offset =>
    cases h
    cases hrest
    exact ⟨['$', '\x7b'], rfl, List.suffix_rfl, rfl⟩
  | case10 c cs offset _ _ ch hch ih =>
    have hlength : byteLength ['\\', c] = 2 := hslash [] c (utf8Size_of_escaped? hch)
    exact exists_marks_of_prepend hlength h hrest ih
  | case11 => cases h
  | case12 => cases h
  | case13 c cs offset _ _ _ _ _ _ _ _ ih =>
    have hlength : byteLength [c] = c.utf8Size := Nat.add_zero c.utf8Size
    exact exists_marks_of_prepend hlength h hrest ih

/-- The text of a template and what comes behind it are the same. -/
def Chunk.Alike (c c' : Chunk) : Prop :=
  c'.text = c.text ∧ c'.rest.map Prod.fst = c.rest.map Prod.fst

theorem Chunk.Alike.prepend {r r' : Except SyntaxError Chunk} {chunk : Chunk} (before : List Char)
    (h : r.map (Chunk.prepend before) = .ok chunk)
    (hr : ∀ c, r = .ok c → ∃ c', r' = .ok c' ∧ c.Alike c') :
    ∃ chunk', r'.map (Chunk.prepend before) = .ok chunk' ∧ chunk.Alike chunk' := by
  obtain ⟨c, hc, rfl⟩ := Except.map_eq_ok.1 h
  obtain ⟨c', rfl, htext, hrest⟩ := hr c hc
  exact ⟨_, rfl, congrArg (before ++ ·) htext, hrest⟩

/-- A template has the same text, wherever it stands. -/
theorem readChunk_place (span' : Span) {span : Span} {cs : List Char} {offset : Nat} {chunk : Chunk}
    (h : readChunk span cs offset = .ok chunk) (offset' : Nat) :
    ∃ chunk', readChunk span' cs offset' = .ok chunk' ∧ chunk.Alike chunk' := by
  fun_induction readChunk span cs offset generalizing chunk offset' with
  | case1 =>
    cases h
    exact ⟨_, rfl, rfl, rfl⟩
  | case2 a b c d cs offset ch hch ih | case4 a b c d e f g h' cs offset ch hch ih
  | case10 c cs offset _ _ ch hch ih =>
    rw [readChunk, hch]
    · exact Chunk.Alike.prepend _ h fun c hc => ih hc _
    all_goals assumption
  | case6 cs offset ih | case7 cs offset ih =>
    rw [readChunk]
    exact Chunk.Alike.prepend _ h fun c hc => ih hc _
  | case9 cs offset =>
    cases h
    rw [readChunk]
    exact ⟨_, rfl, rfl, rfl⟩
  | case13 c cs offset _ _ _ _ _ _ _ _ ih =>
    rw [readChunk]
    · exact Chunk.Alike.prepend _ h fun c hc => ih hc _
    all_goals assumption
  | case3 | case5 | case8 | case11 | case12 => cases h

/-- The characters from the offset on are the rest of a quoted template that a lexer of the source
has read, and behind its quote stands `back`. -/
def Within (source : Source) (back cs : List Char) (offset : Nat) : Prop :=
  ∃ outer before t pos after passed, Lexer.Lexed source outer before pos ∧
    Lexer.next source pos = .ok (t, after) ∧ t.kind = .string ∧ back = after.rest ++ outer ∧
      t.text.toList = passed ++ cs ∧ offset = t.span.start + byteLength passed

theorem within_of_read {source : Source} {back : List Char} {before : List Token} {t : Token}
    {after : Cursor} (h : Lexer.Read source back before t after) (ht : t.kind = .string) :
    Within source (after.rest ++ back) t.text.toList t.span.start := by
  obtain ⟨pos, hlexed, hnext⟩ := h
  exact ⟨back, before, t, pos, after, [], hlexed, hnext, ht, rfl, rfl, rfl⟩

theorem Within.append {source : Source} {back cs passed rest : List Char} {offset : Nat}
    (h : Within source back cs offset) (hsplit : cs = passed ++ rest) :
    Within source back rest (offset + byteLength passed) := by
  obtain ⟨outer, before, t, pos, after, front, hlexed, hnext, hstring, hback, htext, hoffset⟩ := h
  refine ⟨outer, before, t, pos, after, front ++ passed, hlexed, hnext, hstring, hback, ?_, ?_⟩
  · rw [htext, hsplit, List.append_assoc]
  · rw [hoffset, byteLength_append, Nat.add_assoc]

/-- The lexer of an interpolation begins behind its mark. -/
theorem Within.lexed {source : Source} {back cs passed rest : List Char} {offset place : Nat}
    (h : Within source back cs offset) (hmarks : Marks cs offset passed rest place) :
    Lexer.Lexed source ('"' :: back) []
      ⟨rest, place, (source.position place).1, (source.position place).2⟩ := by
  obtain ⟨outer, before, t, pos, after, front, hlexed, hnext, hstring, rfl, htext, hoffset⟩ := h
  have hplace : place = t.span.start + byteLength (front ++ passed) := by
    rw [hmarks.place_eq, hoffset, byteLength_append, Nat.add_assoc]
  rw [hplace]
  refine .inside hlexed hnext hstring ?_ (hmarks.mark.trans (List.suffix_append front passed))
  rw [htext, hmarks.split, List.append_assoc]

/-- A lexer that sees the source up to a quote began within the template that ends there, and has
not left it. -/
theorem within_of_lexed {source : Source} {back : List Char} {before : List Token} {pos : Cursor}
    (h : Lexer.Lexed source ('"' :: back) before pos) :
    Within source back pos.rest pos.offset := by
  generalize hquote : '"' :: back = closing at h
  induction h with
  | whole => cases hquote
  | inside hlexed hnext hstring htext _ =>
    cases hquote
    exact ⟨_, _, _, _, _, _, hlexed, hnext, hstring, rfl, htext, rfl⟩
  | next _ hnext ih =>
    obtain ⟨gap, middle, hgapped, hreading⟩ := Lexer.reading_of_next hnext
    have hmiddle := (ih hquote).append hgapped.passes.split
    rw [← hgapped.passes.offset_eq] at hmiddle
    have hafter := hmiddle.append hreading.written.1.split
    rwa [← hreading.written.1.offset_eq] at hafter

/-- The text goes on where an interpolation has been read. -/
theorem Stands.within {source : Source} {back : List Char} {s : State}
    (h : Stands source ('"' :: back) s) :
    Within source back s.cursor.rest s.cursor.offset := by
  obtain ⟨before, hread⟩ := h.read
  exact within_of_lexed hread.lexed

end Parser

end StaticConfig
