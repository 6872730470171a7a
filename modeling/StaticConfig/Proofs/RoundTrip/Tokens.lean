import StaticConfig.Proofs.RoundTrip.Quoted

/-!
What the lexer reads at the front of a text. A token is described by its kind, its text and what
is left behind it; where it stands in the source does not matter.
-/
namespace StaticConfig.Lexer

/-- At the front of `cs` stands a token of this kind and text, and `rest` is left behind it. -/
def Lexes (cs : List Char) (kind : TokenKind) (text : String) (rest : List Char) : Prop :=
  ∀ (source : Source) (offset line col : Nat), ∃ span after,
    next source ⟨cs, offset, line, col⟩ = .ok (⟨kind, text, span⟩, after) ∧ after.rest = rest

/-- The characters that start a blank, a comment, a new line or a template, or that end the
text. -/
def special : List Char := [' ', '\t', '\r', '#', '/', '\n', '"', '\x00']

def Solid (c : Char) : Prop := c ∉ special

instance (c : Char) : Decidable (Solid c) :=
  inferInstanceAs (Decidable (c ∉ special))

theorem next_solid {c : Char} (h : Solid c) (source : Source) (cs : List Char)
    (offset line col : Nat) :
    next source ⟨c :: cs, offset, line, col⟩ =
      let pos : Cursor := ⟨c :: cs, offset, line, col⟩
      match symbolAt (c :: cs) with
      | some s => .ok (tokenOf source pos .symbol s ((c :: cs).drop s.length))
      | none =>
        if c.isDigit then readNumber source pos
        else if Text.isIdentifierStart c then
          .ok (tokenOf source pos .ident ((c :: cs).takeWhile Text.isIdentifierPart)
            ((c :: cs).dropWhile Text.isIdentifierPart))
        else .error ⟨source, line, col, .invalidCharacter⟩ := by
  simp only [Solid, special, List.mem_cons, List.not_mem_nil, or_false, not_or] at h
  obtain ⟨hblank, htab, hreturn, hhash, hslash, hline, hquote, hzero⟩ := h
  have hgap : skipGap source .blank (c :: cs) offset line col =
      .ok ⟨c :: cs, offset, line, col⟩ := by
    rw [skipGap]
    · simp only [hblank, htab, hreturn, hhash, if_false]
    · rintro more rfl
      exact absurd rfl hslash
    · rintro more rfl
      exact absurd rfl hslash
  have h0 : c.toNat ≠ 0 := fun h => hzero (Char.toNat_inj.1 h)
  rw [next, hgap]
  exact (if_neg h0).trans ((if_neg hline).trans (if_neg hquote))

/-- What words and numbers start with starts no symbol. -/
theorem symbolAt_eq_none {c : Char} (h : Text.isIdentifierStart c || c.isDigit) (cs : List Char) :
    symbolAt (c :: cs) = none := by
  have hheads : (symbols.all fun s => s.head?.any fun d =>
      !(Text.isIdentifierStart d || d.isDigit)) = true := by decide +kernel
  refine List.find?_eq_none.2 fun s hs hprefix => ?_
  have hhead := List.all_eq_true.1 hheads s hs
  cases s with
  | nil => cases hhead
  | cons d s =>
    have hcd : d = c := (List.cons_prefix_cons.1 (List.isPrefixOf_iff_prefix.1 hprefix)).1
    rw [hcd, List.head?_cons, Option.any_some, h] at hhead
    cases hhead

theorem solid_of_start {c : Char} (h : Text.isIdentifierStart c || c.isDigit) : Solid c := by
  have hnone : (special.any fun d => Text.isIdentifierStart d || d.isDigit) = false := by decide
  exact fun hmem => List.any_eq_false.1 hnone c hmem h

theorem toNat_of_isDigit {c : Char} (h : c.isDigit) : 48 ≤ c.toNat ∧ c.toNat ≤ 57 := by
  simpa [Char.isDigit, UInt32.le_iff_toNat_le] using h

theorem isDigit_eq_false_of_isIdentifierStart {c : Char} (h : Text.isIdentifierStart c) :
    c.isDigit = false := by
  rw [← Bool.not_eq_true]
  intro hd
  have hrange : 48 ≤ c.val.toNat ∧ c.val.toNat ≤ 57 := toNat_of_isDigit hd
  have hascii : Text.isAscii c := decide_eq_true (show c.val.toNat < 128 by omega)
  have halpha : c.isAlpha = (decide (65 ≤ c.val ∧ c.val ≤ 90) ||
      decide (97 ≤ c.val) && decide (c.val ≤ 122)) :=
    rfl
  simp only [Text.isIdentifierStart, Text.isAlphabetic_of_ascii hascii, Bool.or_eq_true,
    beq_iff_eq, halpha, UInt32.le_iff_toNat_le, Bool.and_eq_true, decide_eq_true_eq] at h
  rcases h with (h | h) | rfl
  · have : 65 ≤ c.val.toNat := h.1
    omega
  · have : 97 ≤ c.val.toNat := h.1
    omega
  · cases hd

def separators : List Char := ['\n', ',', ']', ' ']

/-- A word or number that stands before the text ends there. -/
def Breaks (tail : List Char) : Prop :=
  ∀ c ∈ tail.head?, c ∈ separators

/-- What no separator has is not had by the character that follows. -/
theorem Breaks.eq_false {tail : List Char} (h : Breaks tail) {p : Char → Bool}
    (hp : separators.any p = false) : ∀ c ∈ tail.head?, p c = false := by
  intro c hc
  rw [← Bool.not_eq_true]
  exact List.any_eq_false.1 hp c (h c hc)

theorem takeWhile_append_eq {p : Char → Bool} {cs tail : List Char} (hcs : ∀ c ∈ cs, p c)
    (htail : ∀ c ∈ tail.head?, p c = false) :
    (cs ++ tail).takeWhile p = cs ∧ (cs ++ tail).dropWhile p = tail := by
  rw [List.takeWhile_append_of_pos hcs, List.dropWhile_append_of_pos hcs]
  cases tail with
  | nil => simp
  | cons c tail =>
    have hc : p c = false := htail c rfl
    simp [hc]

theorem fraction_of_breaks {tail : List Char} (h : Breaks tail) : fraction tail = ([], tail) := by
  rw [fraction]
  rintro d cs rfl
  exact absurd (h '.' rfl) (by decide)

theorem exponent_of_breaks {tail : List Char} (h : Breaks tail) :
    exponent tail = ([], tail, false) := by
  cases tail with
  | nil => rfl
  | cons c tail =>
    have hmark : isExponentMark c = false := h.eq_false (by decide) c rfl
    simp [exponent, hmark]

namespace Lexes

theorem blank {cs rest : List Char} {kind : TokenKind} {text : String}
    (h : Lexes cs kind text rest) : Lexes (' ' :: cs) kind text rest :=
  fun source offset line col => h source (offset + 1) line (col + 1)

theorem eof : Lexes [] .eof "" [] :=
  fun _ _ _ _ => ⟨_, _, rfl, rfl⟩

theorem newline (cs : List Char) : Lexes ('\n' :: cs) .newline "\n" cs :=
  fun _ _ _ _ => ⟨_, _, rfl, rfl⟩

theorem symbol {c : Char} {cs : List Char} (hc : Solid c) (h : symbolAt (c :: cs) = some [c]) :
    Lexes (c :: cs) .symbol (String.singleton c) cs := by
  intro source offset line col
  refine ⟨⟨source, line, col, offset, offset + byteLength [c]⟩,
    ⟨cs, offset + byteLength [c], line, col + 1⟩, ?_, rfl⟩
  rw [next_solid hc, h]
  rfl

theorem openBracket (cs : List Char) : Lexes ('[' :: cs) .symbol "[" cs :=
  symbol (by decide) rfl

theorem closeBracket (cs : List Char) : Lexes (']' :: cs) .symbol "]" cs :=
  symbol (by decide) rfl

theorem openBrace (cs : List Char) : Lexes ('\x7b' :: cs) .symbol "\x7b" cs :=
  symbol (by decide) rfl

theorem closeBrace (cs : List Char) : Lexes ('\x7d' :: cs) .symbol "\x7d" cs :=
  symbol (by decide) rfl

theorem comma (cs : List Char) : Lexes (',' :: cs) .symbol "," cs :=
  symbol (by decide) rfl

theorem minus (cs : List Char) : Lexes ('-' :: cs) .symbol "-" cs :=
  symbol (by decide) rfl

theorem equals (cs : List Char) : Lexes ('=' :: ' ' :: cs) .symbol "=" (' ' :: cs) :=
  symbol (by decide) rfl

theorem string {cs ds : List Char} (h : Text.Quoted.Spells cs ds) (rest : List Char) :
    Lexes ('"' :: (ds ++ '"' :: rest)) .string (String.ofList ds) rest := by
  intro source offset line col
  obtain ⟨after, hskip, hrest, hoffset⟩ := Text.Quoted.skipTemplate_of_spells h source line line col
    rest (offset + 1) (col + 1)
  refine ⟨⟨source, line, col + 1, offset + 1, after.offset - 1⟩, after, ?_, hrest⟩
  have hlen : after.offset - 1 - (offset + 1) = byteLength ds := by omega
  have hread : next source ⟨'"' :: (ds ++ '"' :: rest), offset, line, col⟩ =
      readTemplate source ⟨'"' :: (ds ++ '"' :: rest), offset, line, col⟩ (ds ++ '"' :: rest) := rfl
  simp only [hread, readTemplate, hskip, hlen, takeBytes_append]

theorem ident {name : String} (hname : Text.isIdentifier name) {tail : List Char}
    (htail : Breaks tail) : Lexes (name.toList ++ tail) .ident name tail := by
  rw [Text.isIdentifier] at hname
  match hcs : name.toList with
  | [] => simp [hcs] at hname
  | c :: cs =>
    simp only [hcs, Bool.and_eq_true, List.all_eq_true] at hname
    obtain ⟨hstart, hparts⟩ := hname
    have hall : ∀ d ∈ c :: cs, Text.isIdentifierPart d :=
      List.forall_mem_cons.2 ⟨Text.isIdentifierPart_of_start hstart, hparts⟩
    obtain ⟨htake, hdrop⟩ := takeWhile_append_eq hall (htail.eq_false (by decide))
    have hor : (Text.isIdentifierStart c || c.isDigit) = true := by simp [hstart]
    have hd : c.isDigit = false := isDigit_eq_false_of_isIdentifierStart hstart
    intro source offset line col
    refine ⟨⟨source, line, col, offset, offset + byteLength (c :: cs)⟩,
      ⟨tail, offset + byteLength (c :: cs), line, col + (c :: cs).length⟩, ?_, rfl⟩
    rw [List.cons_append] at htake hdrop ⊢
    rw [next_solid (solid_of_start hor), symbolAt_eq_none hor]
    simp only [hd, hstart, htake, hdrop, tokenOf, ← hcs, String.ofList_toList, if_true]
    rfl

theorem number {ds tail : List Char} (hne : ds ≠ []) (hds : ∀ d ∈ ds, d.isDigit)
    (htail : Breaks tail) : Lexes (ds ++ tail) .number (String.ofList ds) tail := by
  match ds, hne with
  | c :: cs, _ =>
    obtain ⟨htake, hdrop⟩ := takeWhile_append_eq hds (htail.eq_false (by decide))
    have hd : c.isDigit := hds c List.mem_cons_self
    have hor : (Text.isIdentifierStart c || c.isDigit) = true := by simp [hd]
    intro source offset line col
    refine ⟨⟨source, line, col, offset, offset + byteLength (c :: cs)⟩,
      ⟨tail, offset + byteLength (c :: cs), line, col + (c :: cs).length⟩, ?_, rfl⟩
    rw [List.cons_append] at htake hdrop ⊢
    rw [next_solid (solid_of_start hor), symbolAt_eq_none hor]
    simp only [hd, if_true, readNumber, digits, htake, hdrop, fraction_of_breaks htail,
      exponent_of_breaks htail, List.append_nil]
    match tail, htail with
    | [], _ => rfl
    | e :: _, htail =>
      have he : (e == '_' || e.isAlpha) = false :=
        htail.eq_false (p := fun d => d == '_' || d.isAlpha) (by decide) e rfl
      simp only [he, Bool.or_false, if_false, Bool.false_eq_true]
      rfl

end Lexes

end StaticConfig.Lexer
