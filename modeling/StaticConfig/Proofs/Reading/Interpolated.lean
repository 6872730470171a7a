import StaticConfig.Builtin.Library
import StaticConfig.Proofs.Reading.Along
import StaticConfig.Proofs.Reading.Layout
import StaticConfig.Proofs.RoundTrip.Files

/-!
Sources that stand in an interpolation. The lexer of the template around it counts braces and
quotes, while the parser of the source takes token after token; where the source has no comments,
both come to the brace behind it together, since brackets that the parser closes are those that it
has opened before.
-/
namespace StaticConfig

/-- No line ends in the source, nothing stands for its end, and between tokens there are blanks
only. -/
structure Source.Flat (source : Source) : Prop where
  line : '\n' ∉ source.text.toList
  plain : '\x00' ∉ source.text.toList
  uncommented : ∀ before pos passed after, Lexer.Lexed source [] before pos →
    Lexer.Gapped pos passed after → ∀ c ∈ passed, c ∈ Lexer.blanks

/-- The characters that a comment starts with, and those that no interpolation has outside of
strings. -/
def flattening : List Char := ['\n', '\x00', '#', '/']

theorem Source.Flat.of_not_mem {source : Source} (h : ∀ c ∈ flattening, c ∉ source.text.toList) :
    source.Flat := by
  refine ⟨h _ (by decide), h _ (by decide), fun before pos passed after hlexed hgapped => ?_⟩
  obtain ⟨front, hsplit, -⟩ := hlexed.lies
  have hrest : ∀ c ∈ ['#', '/'], c ∉ pos.rest := by
    intro c hc hmem
    refine h c (List.mem_of_mem_drop (i := 2) hc) ?_
    rw [hsplit]
    simp [hmem]
  clear hlexed hsplit
  induction hgapped with
  | stop => exact List.forall_mem_nil _
  | blank hc _ _ ih =>
    refine List.forall_mem_cons.2 ⟨hc, ih fun c hc hmem => ?_⟩
    exact hrest c hc (List.mem_cons_of_mem _ hmem)
  | line hcomment =>
    cases hcomment with
    | hash => exact absurd List.mem_cons_self (hrest '#' (by decide))
    | slashes => exact absurd List.mem_cons_self (hrest '/' (by decide))
    | block => exact absurd List.mem_cons_self (hrest '/' (by decide))
  | block => exact absurd List.mem_cons_self (hrest '/' (by decide))

namespace Lexer

open StaticConfig.Parser (Turns brackets)

/-- The characters that the lexer of a template looks for in an interpolation. -/
def guards : List Char := ['"', '\x7b', '\x7d', '\n', '\x00']

theorem Closes.bare {cs text : List Char} {depth : Nat} {outer : List (Option Nat)}
    (hcs : ∀ c ∈ cs, c ∉ guards) (h : Closes (some depth) outer text) :
    Closes (some depth) outer (cs ++ text) := by
  induction cs with
  | nil => exact h
  | cons c cs ih =>
    obtain ⟨hc, hcs⟩ := List.forall_mem_cons.1 hcs
    exact (ih hcs).inside hc

/-- What ends the outermost construct ends it within another one too. -/
theorem Closes.andThen {frame next : Option Nat} {outer : List (Option Nat)} {text tail : List Char}
    (h : Closes frame [] text) (htail : Closes next outer tail) :
    Closes frame (next :: outer) (text ++ tail) := by
  intro source line f fs more rest offset col hf hfs
  obtain _ | ⟨g, gs⟩ := fs
  · cases hfs
  obtain ⟨hg, hgs⟩ := List.cons.inj hfs
  rw [List.append_assoc]
  have hfirst := h source line f [] (g :: (gs ++ more)) (tail ++ rest) offset col hf rfl
  rw [List.nil_append] at hfirst
  rw [List.cons_append, hfirst, resume, htail source line g gs more rest _ _ hg hgs,
    byteLength_append, List.length_append, Nat.add_assoc, Nat.add_assoc]

/-- What the characters of a token are, by its kind. -/
structure Made (t : Token) : Prop where
  word : t.kind = .ident ∨ t.kind = .number → ∀ c ∈ t.text.toList, c ∉ guards
  symbol : t.kind = .symbol → t.text.toList ∈ symbols
  quoted : t.kind = .string → Closes none [] (t.text.toList ++ ['"'])
  ended : t.kind = .eof → t.text.toList = []

namespace Made

variable {t : Token}

theorem of_word (hkind : t.kind = .ident ∨ t.kind = .number)
    (h : ∀ c ∈ t.text.toList, c ∉ guards) : Made t := by
  obtain hkind | hkind := hkind
  · constructor <;> simp_all
  · constructor <;> simp_all

theorem of_symbol (hkind : t.kind = .symbol) (h : t.text.toList ∈ symbols) : Made t := by
  constructor <;> simp_all

theorem of_quoted (hkind : t.kind = .string) (h : Closes none [] (t.text.toList ++ ['"'])) :
    Made t := by
  constructor <;> simp_all

theorem of_ended (hkind : t.kind = .eof) (h : t.text.toList = []) : Made t := by
  constructor <;> simp_all

theorem of_newline (hkind : t.kind = .newline) : Made t := by
  constructor <;> simp_all

end Made

theorem not_mem_guards {p : Char → Bool} (hp : guards.any p = false) {cs : List Char}
    (h : ∀ c ∈ cs, p c = true) : ∀ c ∈ cs, c ∉ guards :=
  fun c hc hguard => List.any_eq_false.1 hp c hguard (h c hc)

theorem made_of_readTemplate {source : Source} {pos after : Cursor} {t : Token} {cs : List Char}
    (h : readTemplate source pos cs = .ok (t, after)) : Made t := by
  have hscans := scans_of_ok h
  unfold readTemplate at h
  dsimp only at h
  split at h
  · cases h
  · next closed hskip =>
    obtain ⟨_, hcs, ⟨inner, close, rfl, hclose⟩, hcloses⟩ := closes_of_skipTemplate hskip
    obtain ⟨inner', hskips⟩ := skipTemplate_eq_ok hskip
    have hquote : inner ++ [close] = inner' ++ ['"'] :=
      List.append_cancel_right (hcs.symm.trans hskips.passes.split)
    have hread := readTemplate_of_closes hclose hcloses source pos closed.rest
    rw [← hcs] at hread
    obtain ⟨hkind, htext, -⟩ := hscans.eq hread
    refine .of_quoted hkind ?_
    rw [htext, String.toList_ofList, ← (List.append_inj' hquote rfl).2]
    exact hcloses

theorem made_of_readNumber {source : Source} {pos after : Cursor} {t : Token}
    (h : readNumber source pos = .ok (t, after)) : Made t := by
  rw [readNumber] at h
  split_ifs at h
  · cases h
    refine .of_word (.inr rfl) (not_mem_guards (p := isNumberPart) (by decide) ?_)
    simp only [String.toList_ofList, List.forall_mem_append]
    refine ⟨⟨fun d hd => ?_, (split_fraction _).2⟩, (split_exponent _).2⟩
    exact isNumberPart_of_isDigit ((split_digits pos.rest).2 d hd)

theorem made_of_next {source : Source} {pos after : Cursor} {t : Token}
    (h : next source pos = .ok (t, after)) : Made t := by
  obtain ⟨mid, -, h⟩ := Except.bind_eq_ok.1 h
  unfold readToken at h
  split at h
  · cases h
    exact .of_ended rfl String.toList_ofList
  · next c cs hpos =>
    split at h
    · cases h
      exact .of_ended rfl String.toList_ofList
    · split at h
      · cases h
        exact .of_newline rfl
      · split at h
        · exact made_of_readTemplate h
        · split at h
          · next s hs =>
            cases h
            refine .of_symbol rfl ?_
            change (String.ofList s).toList ∈ symbols
            rw [String.toList_ofList]
            exact List.mem_of_find?_eq_some hs
          · split at h
            · exact made_of_readNumber h
            · split at h
              · cases h
                refine .of_word (.inl rfl)
                  (not_mem_guards (p := Text.isIdentifierPart) (by decide) ?_)
                rw [String.toList_ofList]
                exact fun d hd => List.mem_takeWhile_imp hd
              · cases h

/-- Of the symbols only braces have a character that counts in a template. -/
theorem not_mem_guards_of_symbol {s : List Char} (hs : s ∈ symbols) (hopen : s ≠ ['\x7b'])
    (hclose : s ≠ ['\x7d']) : ∀ c ∈ s, c ∉ guards := by
  have hall : ∀ s ∈ symbols, s ≠ ['\x7b'] → s ≠ ['\x7d'] →
      (s.all fun c => decide (c ∉ guards)) = true := by
    decide
  exact fun c hc => of_decide_eq_true (List.all_eq_true.1 (hall s hs hopen hclose) c hc)

theorem braces_of_mem_brackets : ∀ b ∈ brackets,
    b.1 ≠ "\x7d" ∧ b.2 ≠ "\x7b" ∧ (b.1 = "\x7b" ↔ b.2 = "\x7d") := by
  decide

/-- The lexer of a template passes a token of its interpolation like the parser does, and counts
the braces that are open. -/
theorem Made.closes {t : Token} (h : Made t) {K K' : List String} (hturns : Turns K t K')
    {outer : List (Option Nat)} {tail : List Char}
    (htail : Closes (some (K'.count "\x7b")) outer tail) :
    Closes (some (K.count "\x7b")) outer (t.writtenText ++ tail) := by
  have hbare (hstring : t.kind ≠ .string) : t.writtenText = t.text.toList := if_neg hstring
  have hplain {symbol : String} (hsymbol : t.isSymbol symbol = true)
      (hopen : symbol ≠ "\x7b") (hclose : symbol ≠ "\x7d") : ∀ c ∈ t.writtenText, c ∉ guards := by
    obtain ⟨hkind, rfl⟩ := Token.isSymbol_iff.1 hsymbol
    rw [hbare (by rw [hkind]; decide)]
    refine not_mem_guards_of_symbol (h.symbol hkind) (fun htext => hopen ?_)
      fun htext => hclose ?_
    · exact String.toList_inj.1 htext
    · exact String.toList_inj.1 htext
  cases hturns with
  | plain hkind =>
    by_cases hstring : t.kind = .string
    · rw [Token.writtenText, if_pos hstring]
      exact ((h.quoted hstring).andThen htail).beginQuote
    · simp only [List.mem_cons, hstring, List.not_mem_nil, or_false] at hkind
      rw [hbare hstring]
      exact htail.bare (h.word hkind)
  | symbol hsymbol hno =>
    obtain ⟨hopen, hclose⟩ := hno ("\x7b", "\x7d") (by decide)
    exact htail.bare (hplain hsymbol hopen hclose)
  | @opens _ _ b hb hsymbol =>
    obtain ⟨hclose, -, -⟩ := braces_of_mem_brackets b hb
    by_cases hbrace : b.1 = "\x7b"
    · obtain ⟨hkind, htext⟩ := Token.isSymbol_iff.1 hsymbol
      rw [hbrace, List.count_cons_self] at htail
      rw [hbare (by rw [hkind]; decide), htext, hbrace]
      exact htail.beginBrace
    · rw [List.count_cons_of_ne hbrace] at htail
      exact htail.bare (hplain hsymbol hbrace hclose)
  | @closes _ _ b hb hsymbol =>
    obtain ⟨-, hopen, hpair⟩ := braces_of_mem_brackets b hb
    by_cases hbrace : b.2 = "\x7d"
    · obtain ⟨hkind, htext⟩ := Token.isSymbol_iff.1 hsymbol
      rw [hbare (by rw [hkind]; decide), htext, hbrace, hpair.2 hbrace, List.count_cons_self]
      exact htail.endBrace
    · rw [List.count_cons_of_ne (mt hpair.1 hbrace)]
      exact htail.bare (hplain hsymbol hopen hbrace)

end Lexer

namespace Parser

open Lexer (Lexed Gapped Closes Made Lexes)

variable {source : Source}

/-- The token and the text behind it are those of the first parser with a brace behind. -/
def Braced (found found' : Token × Cursor) : Prop :=
  found.1.kind ≠ .newline ∧
    (found.1.kind ≠ .eof ∧ found'.1.kind = found.1.kind ∧ found'.1.text = found.1.text ∧
      found'.2.rest = found.2.rest ++ ['\x7d'] ∨
    found.1.kind = .eof ∧ found.2.rest = [] ∧ found'.1.isSymbol "\x7d" = true ∧
      found'.2.rest = [])

theorem Braced.alike {found found' : Token × Cursor} (h : Braced found found') :
    found.1.Alike found'.1 := by
  obtain ⟨-, ⟨-, hkind, htext, -⟩ | ⟨heof, -, hbrace, -⟩⟩ := h
  · exact .inl ⟨hkind.symm, htext.symm⟩
  · exact .inr ⟨heof, hbrace⟩

theorem lexes_brace {cs : List Char} (h : ∀ c ∈ cs, c ∈ [' ', '\t']) :
    Lexes (cs ++ ['\x7d']) .symbol "\x7d" [] := by
  induction cs with
  | nil => exact Lexes.closeBrace []
  | cons c cs ih =>
    obtain ⟨hc, hcs⟩ := List.forall_mem_cons.1 h
    have hrest := ih hcs
    intro source offset line col
    simp only [List.mem_cons, List.not_mem_nil, or_false] at hc
    obtain rfl | rfl := hc
    · exact hrest source (offset + 1) line (col + 1)
    · exact hrest source (offset + 1) line (col + 4)

/-- Where no line ends a gap of blanks has no carriage returns. -/
theorem spaces_of_gapped {pos after : Cursor} {passed : List Char} (h : Gapped pos passed after)
    (hline : '\n' ∉ pos.rest) (hblanks : ∀ c ∈ passed, c ∈ Lexer.blanks) :
    ∀ c ∈ passed, c ∈ [' ', '\t'] := by
  induction h with
  | stop => exact List.forall_mem_nil _
  | @blank c cs passed offset line col after hc hreturn _ ih =>
    rw [List.mem_cons, not_or] at hline
    obtain ⟨-, hblanks⟩ := List.forall_mem_cons.1 hblanks
    refine List.forall_mem_cons.2 ⟨?_, ih hline.2 hblanks⟩
    have hne : c ≠ '\r' := fun hc => hline.2 (List.mem_of_mem_head? (hreturn hc))
    simpa [Lexer.blanks, hne] using hc
  | line hcomment =>
    cases hcomment with
    | hash => exact absurd (hblanks '#' List.mem_cons_self) (by decide)
    | slashes => exact absurd (hblanks '/' List.mem_cons_self) (by decide)
    | block => exact absurd (hblanks '/' List.mem_cons_self) (by decide)
  | block => exact absurd (hblanks '/' List.mem_cons_self) (by decide)

theorem inert_brace : Lexer.Inert ['\x7d'] := by
  rintro c ⟨⟩
  decide

/-- The next token is the same, or the brace behind the text. -/
theorem braced_next (hsource : source.Flat) {before : List Token} {pos pos' : Cursor}
    {found : Token × Cursor} (hlexed : Lexed source [] before pos) (source' : Source)
    (hpos' : pos'.rest = pos.rest ++ ['\x7d']) (h : Lexer.next source pos = .ok found) :
    ∃ found', Lexer.next source' pos' = .ok found' ∧ Braced found found' := by
  obtain ⟨tok, after⟩ := found
  obtain ⟨gap, middle, hgapped, hreading⟩ := Lexer.reading_of_next h
  obtain ⟨front, htext, -⟩ := hlexed.lies
  have hsplit := hgapped.passes.split
  have hin {c : Char} (hc : c ∈ pos.rest) : c ∈ source.text.toList := by
    rw [htext]
    simp [hc]
  have hnewline : tok.kind ≠ .newline := by
    cases hreading with
    | bare _ hkind => exact hkind
    | newline hrest =>
      refine absurd (hin ?_) hsource.line
      rw [hsplit, hrest]
      simp
    | quoted => exact TokenKind.noConfusion
  by_cases heof : tok.kind = .eof
  · obtain ⟨taken, htakes⟩ := hreading.takes
    obtain ⟨rfl, hend⟩ := htakes.ends heof
    have hmiddle : middle.rest = after.rest := htakes.passes.split
    have hrest : after.rest = [] := by
      cases hafter : after.rest with
      | nil => rfl
      | cons c cs =>
        rw [hafter] at hend
        have hnul : c = '\x00' := Char.toNat_inj.1 (beq_iff_eq.1 hend)
        refine absurd (hin ?_) hsource.plain
        rw [hsplit, hmiddle, hafter, hnul]
        simp
    rw [hmiddle, hrest, List.append_nil] at hsplit
    have hspaces := spaces_of_gapped hgapped (fun hc => hsource.line (hin hc))
      (hsource.uncommented before pos gap middle hlexed hgapped)
    obtain ⟨span, after', hnext, hafter⟩ :=
      lexes_brace hspaces source' pos'.offset pos'.line pos'.col
    rw [← hsplit, ← hpos'] at hnext
    exact ⟨_, hnext, hnewline, .inr ⟨heof, hrest, rfl, hafter⟩⟩
  · have hlexes := Lexer.lexes_of_next h (List.append_nil _).symm (List.append_nil _).symm
      Lexer.inert_nil inert_brace fun h => absurd h heof
    obtain ⟨span, after', hnext, hafter⟩ := hlexes source' pos'.offset pos'.line pos'.col
    rw [← hpos'] at hnext
    exact ⟨_, hnext, hnewline, .inl ⟨heof, rfl, rfl, hafter⟩⟩

/-- Where no line ends the nesting does not matter. -/
theorem fetch_of_next {nested : Bool} {pos : Cursor} {found : Token × Cursor}
    (h : Lexer.next source pos = .ok found) (hkind : found.1.kind ≠ .newline) :
    fetch source nested pos = .ok found := by
  rw [fetch, h]
  have hline : (nested && found.1.kind == .newline) = false := by
    rw [beq_eq_false_iff_ne.2 hkind, Bool.and_false]
  exact if_neg (Bool.eq_false_iff.1 hline)

/-- The first parser reads a source, the second one the same text in an interpolation. What the
first one has passed so far, the lexer of the template passes with the same braces open. -/
structure Encloses (source : Source) (K : List String) (s t : State) : Prop where
  source_eq : s.source = source
  lexed : ∃ before, Lexed source [] before s.cursor
  made : Made s.tok
  braced : Braced (s.tok, s.cursor) (t.tok, t.cursor)
  skips : ∃ front, source.text.toList = front ++ s.tok.writtenText ++ s.cursor.rest ∧
    ∀ outer tail, Closes (some (K.count "\x7b")) outer tail → Closes (some 0) outer (front ++ tail)

theorem encloses_of_fetch (hsource : source.Flat) {before : List Token} {K : List String}
    {pos pos' cursor : Cursor} {tok : Token} {front : List Char} {nested : Bool}
    (hlexed : Lexed source [] before pos) (hsplit : source.text.toList = front ++ pos.rest)
    (hskips : ∀ outer tail, Closes (some (K.count "\x7b")) outer tail →
      Closes (some 0) outer (front ++ tail))
    (h : fetch source nested pos = .ok (tok, cursor)) (source' : Source) (nested' : Bool)
    (hpos' : pos'.rest = pos.rest ++ ['\x7d']) :
    ∃ tok' cursor', fetch source' nested' pos' = .ok (tok', cursor') ∧
      ∀ n m, Encloses source K ⟨source, cursor, tok, n⟩ ⟨source', cursor', tok', m⟩ := by
  obtain ⟨first, hnext, -⟩ := Except.bind_eq_ok.1 h
  obtain ⟨⟨tok', cursor'⟩, hnext', hbraced⟩ := braced_next hsource hlexed source' hpos' hnext
  have hline : tok'.kind ≠ .newline := by
    obtain ⟨hkind, ⟨-, hsame, -⟩ | ⟨-, -, hbrace, -⟩⟩ := hbraced
    · rw [hsame]
      exact hkind
    · rw [(Token.isSymbol_iff.1 hbrace).1]
      decide
  cases (fetch_of_next hnext hbraced.1).symm.trans h
  refine ⟨tok', cursor', fetch_of_next hnext' hline, fun n m => ?_⟩
  obtain ⟨gap, middle, hgapped, hreading⟩ := Lexer.reading_of_next hnext
  refine ⟨rfl, ⟨_, hlexed.next hnext⟩, Lexer.made_of_next hnext, hbraced, front ++ gap, ?_, ?_⟩
  · rw [hsplit, hgapped.passes.split, hreading.written.1.split]
    simp
  · intro outer tail htail
    have hguards : Lexer.guards.any (fun c => decide (c ∈ Lexer.blanks)) = false := by decide
    have hblanks := Lexer.not_mem_guards hguards fun c hc =>
      decide_eq_true (hsource.uncommented before pos gap middle hlexed hgapped c hc)
    rw [List.append_assoc]
    exact hskips outer _ (htail.bare hblanks)

/-- Behind the current token both go on in the same text. -/
theorem Encloses.rest_eq {K : List String} {s t : State} (h : Encloses source K s t)
    (hkind : s.tok.kind ≠ .eof) : t.cursor.rest = s.cursor.rest ++ ['\x7d'] := by
  obtain ⟨-, ⟨-, -, -, hrest⟩ | ⟨heof, -⟩⟩ := h.braced
  · exact hrest
  · exact absurd heof hkind

theorem Turns.kind_ne {K K' : List String} {t : Token} (h : Turns K t K') : t.kind ≠ .eof := by
  intro heof
  cases h with
  | plain hkind =>
    rw [heof] at hkind
    exact absurd hkind (by decide)
  | symbol hsymbol | opens _ hsymbol | closes _ hsymbol =>
    rw [(Token.isSymbol_iff.1 hsymbol).1] at heof
    cases heof

/-- The parser of a source and that of the same text in an interpolation. -/
def Tandem.enclosed (hsource : source.Flat) : Tandem where
  Goes := Encloses source
  Nests _ _ _ := True
  Torn _ := False
  alike h := h.braced.alike
  nested _ _ h := ⟨h.source_eq, h.lexed, h.made, h.braced, h.skips⟩
  deeper _ _ := trivial
  lined := trivial
  fetched {K K' s t tok cursor} h hturns _ hfetch := by
    obtain ⟨front, hsplit, hskips⟩ := h.skips
    obtain ⟨before, hlexed⟩ := h.lexed
    obtain ⟨s, scursor, stok, n⟩ := s
    cases h.source_eq
    obtain ⟨tok', cursor', hfetch', hencloses⟩ := encloses_of_fetch hsource hlexed hsplit
      (fun outer tail htail => by
        rw [List.append_assoc]
        exact hskips outer _ (h.made.closes hturns htail))
      hfetch t.source (decide (0 < t.nesting)) (h.rest_eq hturns.kind_ne)
    exact ⟨tok', cursor', hfetch', hencloses _ _⟩
  skipped h _ hline _ := absurd hline h.braced.1
  peeked {K s t tok cursor} h _ hident hnext := by
    obtain ⟨before, hlexed⟩ := h.lexed
    rw [h.source_eq] at hnext
    have hrest := h.rest_eq (hident.trans_ne (by decide))
    obtain ⟨⟨tok', cursor'⟩, hnext', hbraced⟩ := braced_next hsource hlexed t.source hrest hnext
    exact ⟨tok', cursor', hnext', hbraced.alike⟩
  torn {K s t tok cursor} h hdot hnext := by
    obtain ⟨before, hlexed⟩ := h.lexed
    rw [h.source_eq] at hnext
    have hrest := h.rest_eq ((Token.isSymbol_iff.1 hdot).1.trans_ne (by decide))
    obtain ⟨⟨tok', cursor'⟩, hnext', hbraced⟩ := braced_next hsource hlexed t.source hrest hnext
    exact ⟨tok', cursor', hnext', .inl hbraced.alike⟩

end Parser

end StaticConfig

/-!
Interpolations embed expressions. Between quotes, behind the mark of an interpolation, a source is
parsed as the same tree, whatever braces and quotes it has, and this has the same value in every
context.
-/
namespace StaticConfig

namespace Parser

open Lexer (Closes Lexes)

variable {source : Source} {e : Expr}

theorem skipNewlines_of_ne {s s' : State} (h : skipNewlines.run s = .ok ((), s'))
    (hkind : s.tok.kind ≠ .newline) : s' = s := by
  obtain ⟨-, rfl⟩ | ⟨hline, -⟩ := run_skipNewlines_eq_ok.1 h
  · rfl
  · exact absurd hline hkind

/-- From the start of an interpolation with the text both the lexer of the template around it and
the parser inside of it come to the brace behind it, and the parser finds the same tree. -/
theorem enclosed_of_expression (hsource : source.Flat) (h : expression source = .ok e)
    (source' : Source) {pos : Cursor} (hpos : pos.rest = source.text.toList ++ ['\x7d']) :
    (∀ outer tail, Closes (some 0) outer tail →
      Closes (some 0) outer (source.text.toList ++ tail)) ∧
      ∃ t e' t', start source' pos 1 = .ok t ∧
        (parseExpr (depthBound source)).run t = .ok (e', t') ∧
          t'.tok.isSymbol "\x7d" = true ∧ t'.cursor.rest = [] ∧ e'.unplaced = e.unplaced := by
  obtain ⟨s, s1, s2, s3, hstart, hfirst, hexpr, hlast, heof⟩ := expression_eq_ok.1 h
  obtain ⟨⟨tok, cursor⟩, hfetch, hs⟩ := Except.bind_eq_ok.1 hstart
  cases hs
  have hskips : ∀ outer tail, Closes (some (([] : List String).count "\x7b")) outer tail →
      Closes (some 0) outer ([] ++ tail) := fun _ _ => id
  obtain ⟨tok', cursor', hfetch', hencloses⟩ :=
    encloses_of_fetch hsource .whole rfl hskips hfetch source' true hpos
  have hat : (Tandem.enclosed hsource).At [] 0 1 ⟨source, cursor, tok, 0⟩
      ⟨source', cursor', tok', 1⟩ := ⟨hencloses 0 1, rfl, rfl⟩
  cases skipNewlines_of_ne hfirst hat.goes.braced.1
  obtain ⟨e', t', hexpr', he, hat'⟩ | hmark := along_parseExpr _ trivial hat e s2 hexpr
  · cases skipNewlines_of_ne hlast hat'.goes.braced.1
    obtain ⟨-, ⟨hne, -⟩ | ⟨-, hrest, hbrace, hrest'⟩⟩ := hat'.goes.braced
    · exact absurd heof hne
    refine ⟨fun outer tail htail => ?_, _, e', t', ?_, hexpr', hbrace, hrest', he.symm⟩
    · obtain ⟨front, hsplit, hskips⟩ := hat'.goes.skips
      have hwritten : s2.tok.writtenText = [] := by
        rw [Token.writtenText, if_neg (by rw [heof]; decide), hat'.goes.made.ended heof]
      change s2.cursor.rest = [] at hrest
      rw [hwritten, hrest, List.append_nil, List.append_nil] at hsplit
      rw [hsplit]
      exact hskips outer tail htail
    · exact Except.bind_eq_ok.2 ⟨(tok', cursor'), hfetch', rfl⟩
  · obtain ⟨_, _, _, _, _, htorn⟩ := hmark
    exact htorn.elim

theorem lexes_of_closes {inner : List Char} (h : Closes none [] (inner ++ ['"']))
    (tail : List Char) : Lexes ('"' :: (inner ++ ['"']) ++ tail) .string (String.ofList inner)
      tail := by
  intro source offset line col
  obtain ⟨span, after, hread, hrest⟩ := Lexer.readTemplate_of_closes (by decide) h source
    ⟨'"' :: (inner ++ ['"']) ++ tail, offset, line, col⟩ tail
  exact ⟨span, after, hread, hrest⟩

/-- The text of a source as an interpolation of a template. -/
def embedding (source : Source) : List Char :=
  '$' :: '\x7b' :: (source.text.toList ++ ['\x7d'])

/-- The template is a lone interpolation of a tree that is that of the source but for ranges. -/
def Embeds (e : Expr) (template : Expr) : Prop :=
  ∃ span e', template = .template span [.interp e'] ∧ e'.unplaced = e.unplaced

theorem runs_embedding (hsource : source.Flat) (h : expression source = .ok e) {n fuel : Nat}
    {rest : List Char} (hfuel : depthBound source < fuel) (span : Span) (offset : Nat) :
    Runs n rest (parseTemplate fuel span (embedding source) offset) n rest fun parts =>
      ∃ e', parts = [.interp e'] ∧ e'.unplaced = e.unplaced := by
  intro s hs
  obtain ⟨fuel, rfl⟩ := Nat.exists_eq_add_one_of_ne_zero (Nat.ne_of_gt (Nat.zero_lt_of_lt hfuel))
  let place := span.source.position (offset + 2)
  let inside : Cursor := ⟨source.text.toList ++ ['\x7d'], offset + 2, place.1, place.2⟩
  have hinside : inside.rest = source.text.toList ++ ['\x7d'] := rfl
  obtain ⟨-, t, e', t', hstart, hexpr, hbrace, hrest, he⟩ :=
    enclosed_of_expression hsource h span.source hinside
  have hmore := extends_parseExpr_of_le (Nat.le_of_lt_succ hfuel) t _ hexpr
  refine ⟨[.interp e'], s, ?_, hs, e', rfl, he⟩
  have hchunk : readChunk span (embedding source) offset =
      .ok ⟨[], some (source.text.toList ++ ['\x7d'], offset + 2)⟩ := by
    rw [embedding, readChunk]
  have htail : (parseTemplate fuel span t'.cursor.rest t'.cursor.offset).run s = .ok ([], s) := by
    obtain ⟨fuel, rfl⟩ : ∃ k, fuel = k + 1 := ⟨fuel - 1, by
      have hpos : 0 < depthBound source := Nat.mul_pos (by decide) (Nat.succ_pos _)
      omega⟩
    rw [hrest, parseTemplate]
    rfl
  rw [parseTemplate, hchunk]
  refine run_bind_eq_ok.2 ⟨_, s, rfl, run_bind_eq_ok.2 ⟨s, s, rfl, ?_⟩⟩
  refine run_bind_eq_ok.2 ⟨t, s, run_liftM_of_eq_ok hstart s, run_bind_eq_ok.2 ⟨⟨⟩, t, rfl, ?_⟩⟩
  refine run_bind_eq_ok.2 ⟨e', t', hmore, run_bind_eq_ok.2 ⟨_, t', rfl, ?_⟩⟩
  rw [hbrace]
  refine run_bind_eq_ok.2 ⟨t', t', rfl, run_bind_eq_ok.2 ⟨⟨⟩, s, rfl, ?_⟩⟩
  exact run_bind_eq_ok.2 ⟨[], s, htail, rfl⟩

/-- The interpolation between quotes is a template, wherever it stands. -/
theorem phrase_embedding (hsource : source.Flat) (h : expression source = .ok e) :
    Phrase ('"' :: (embedding source ++ ['"'])) (Embeds e) := by
  have hcloses : Closes none [] (embedding source ++ ['"']) := by
    let inside : Cursor := ⟨source.text.toList ++ ['\x7d'], 0, 1, 1⟩
    have hinside : inside.rest = source.text.toList ++ ['\x7d'] := rfl
    have hbehind : Closes (some 0) [none] (source.text.toList ++ ['\x7d', '"']) :=
      (enclosed_of_expression hsource h source hinside).1 _ _ Closes.quote.endInterpolation
    have hsplit : embedding source ++ ['"'] =
        '$' :: '\x7b' :: (source.text.toList ++ ['\x7d', '"']) := by
      simp [embedding]
    rw [hsplit]
    exact hbehind.interpolation
  have hlex := lexes_of_closes hcloses
  refine .of_primary (Nat.succ_pos _) (fun {n tail} _ => ?_) fun {fuel n tail} hfuel hstop => ?_
  · exact ⟨.string, _, tail, hlex tail, by decide, TokenKind.noConfusion, TokenKind.noConfusion⟩
  · rw [parsePrimary]
    refine (Runs.current (hlex tail)).bind ?_
    rintro _ ⟨span, rfl⟩
    simp only [String.toList_ofList]
    have hlength : depthBound source < fuel := by
      simp only [embedding, List.length_cons, List.length_append, List.length_nil,
        String.length_toList] at hfuel
      rw [depthBound]
      omega
    refine (runs_embedding hsource h hlength span span.start).bind ?_
    rintro _ ⟨e', rfl, he⟩
    refine (Runs.advance (hlex tail) hstop.seen).bind fun _ _ => ?_
    exact Runs.pure ⟨_, e', rfl, he⟩

end Parser

namespace Eval

theorem settle_liftM (r : Report Value) : settle (liftM r) = r := by
  obtain ⟨v, ds⟩ := r
  exact congrArg (Report.mk v) (List.append_nil ds)

/-- A template that is a lone interpolation has the value of this. -/
theorem eval_interpolation (s : Setting) (env : Env) (span : Span) (e : Expr) :
    eval s env (.template span [.interp e]) = eval s env e := by
  rw [eval]
  exact settle_liftM _

end Eval

namespace Library

/-- Only the function that gives a new result at each call knows where it is called. -/
theorem withEvaluator_site {name : String} (h : name ≠ "uuid") (ambient : Ambient)
    (evaluate : Expr → Report Value) (site : Span) :
    withEvaluator ambient evaluate site name = withEvaluator ambient evaluate default name := by
  simp only [withEvaluator, impureFunctions, List.lookup_cons, beq_eq_false_iff_ne.2 h]

/-- Where that function is not called, or not run, the standard library has no use for places. -/
theorem agreeOn_placeless {names : Set String} {pureOnly : Bool} (ambient : Ambient)
    (h : pureOnly = true ∨ "uuid" ∉ names) : Setting.AgreeOn names ⟨standard ambient, pureOnly⟩
      (Setting.placeless ⟨standard ambient, pureOnly⟩) := by
  intro name hname vs span
  by_cases hid : name = "uuid"
  · subst hid
    obtain rfl := h.resolve_right (not_not.2 hname)
    rfl
  · have hsite : standard ambient span name = standard ambient default name :=
      withEvaluator_site hid ambient _ span
    simp only [Eval.callNamed, Setting.placeless, hsite]

end Library

open Eval (eval)

/-- A source without line ends and comments can stand in an interpolation as it is. Between quotes
it is a template with this interpolation only, the tree in it is the same but for ranges, and where
functions do not know from where they are called it has the same value, and reports the same but for
places. -/
theorem interpolation_embeds {source : Source} (hsource : source.Flat) {e : Expr}
    (h : Parser.expression source = .ok e) (file : String) :
    ∃ span e', Parser.expression ⟨file, "\"$\x7b" ++ source.text ++ "\x7d\""⟩ =
        .ok (.template span [.interp e']) ∧
      e'.unplaced = e.unplaced ∧
        ∀ (names : Set String) (s : Setting) (env : Env), e.CallsIn names →
          s.AgreeOn names s.placeless →
            (eval s env (.template span [.interp e'])).unplaced = (eval s env e).unplaced := by
  have hphrase := Parser.phrase_embedding hsource h
  have htext : ("\"$\x7b" ++ source.text ++ "\x7d\"").toList =
      '"' :: (Parser.embedding source ++ ['"']) := by
    simp [Parser.embedding]
  rw [← htext] at hphrase
  obtain ⟨_, hparsed, span, e', rfl, he⟩ := Parser.expression_of_phrase hphrase file
  refine ⟨span, e', hparsed, he, fun names s env hcalls hs => ?_⟩
  rw [Eval.eval_interpolation]
  exact (Eval.eval_eq_of_unplaced_eq he.symm hcalls hs env).symm

/-- A source with quotes, escapes and braces of all kinds, in each other. -/
def tangled : Source :=
  ⟨"main.tf", "upper(\x7b a = \"$$\x7b\\\"$\x7bb[\"\x7d\"]\x7d\" \x7d.a)"⟩

/-- A template around the source. The standard library has no use for places in it. -/
theorem interpolation_embeds_tangled : ∃ e span e', Parser.expression tangled = .ok e ∧
    Parser.expression ⟨"main.tf", "\"$\x7b" ++ tangled.text ++ "\x7d\""⟩ =
      .ok (.template span [.interp e']) ∧
    e'.unplaced = e.unplaced ∧ ∀ ambient env,
      (eval ⟨Library.standard ambient, false⟩ env (.template span [.interp e'])).unplaced =
        (eval ⟨Library.standard ambient, false⟩ env e).unplaced := by
  have hshape : (Parser.expression tangled).toOption.map
      (fun e => e.parts.filterMap Expr.callee?) = some ["upper"] := by
    decide +kernel
  have hflat : tangled.Flat := by
    have hall : (flattening.all fun c => decide (c ∉ tangled.text.toList)) = true := by
      decide +kernel
    exact .of_not_mem fun c hc => of_decide_eq_true (List.all_eq_true.1 hall c hc)
  cases hparse : Parser.expression tangled with
  | error fault =>
    rw [hparse] at hshape
    cases hshape
  | ok e =>
    rw [hparse] at hshape
    have hnames : e.parts.filterMap Expr.callee? = ["upper"] := Option.some.inj hshape
    have hcalls : e.CallsIn {"upper"} := by
      intro p hp name hname
      have hmem : name ∈ e.parts.filterMap Expr.callee? := List.mem_filterMap.2 ⟨p, hp, hname⟩
      rw [hnames] at hmem
      exact List.mem_singleton.1 hmem
    obtain ⟨span, e', hwhole, he, heval⟩ := interpolation_embeds hflat hparse "main.tf"
    refine ⟨e, span, e', rfl, hwhole, he, fun ambient env => ?_⟩
    exact heval _ _ env hcalls (Library.agreeOn_placeless ambient (.inr (by decide)))

end StaticConfig
