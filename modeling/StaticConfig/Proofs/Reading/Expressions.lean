import StaticConfig.Proofs.Reading.Found

/-!
The expressions that the parser finds are in order: one lemma for each of its functions, by
recursion along with them. What carries the induction is that an expression starts at the token
where the parser stood, ends beside the one where it stands now, and binds at least as tightly as it
was asked to.
-/
namespace StaticConfig.Parser

open StaticConfig.Lexer (Read Beside)
open StaticConfig.Expr (Sound SoundKey)

variable {source : Source}

/-- A name that has not become longer has been left as it is, and nothing was passed. -/
theorem from_qualified : ∀ (limit : Nat) {back : List Char} {place : Nat} {s : State}
    {name : String}, Behind source back place s → From s (qualified limit name) fun whole s' =>
      Behind source back place s' ∧ (whole = name ∧ s' = s ∨ name.length < whole.length)
  | 0, _, _, _, _, _ => From.failHere
  | limit + 1, back, place, s, name, hs => by
    rw [qualified]
    refine From.sees ?_
    split
    · refine (From.advance hs.stands).bind fun _ s1 h1 => ?_
      refine (From.expectName h1.stands _).bind fun part s2 ⟨_, h2⟩ => ?_
      refine (from_qualified limit ((hs.goes h1).goes h2)).mono fun whole s3 ⟨h3, hwhole⟩ => ?_
      have hlength : (name ++ "::" ++ part).length = name.length + 2 + part.length := by
        rw [String.length_append, String.length_append]
        rfl
      refine ⟨h3, .inr ?_⟩
      rcases hwhole with ⟨rfl, -⟩ | hwhole
      · omega
      · omega
    · exact From.pure ⟨hs, .inl ⟨rfl, rfl⟩⟩

theorem sound_negated (span : Span) (op : UnaryOp) {e : Expr} (h : span.Placed source)
    (hrank : BinaryOp.levels.length < e.rank) (he : e.Sound source) :
    (negated span op e).Sound source ∧ (negated span op e).span = span ∧
      BinaryOp.levels.length < (negated span op e).rank := by
  unfold negated
  split
  · exact ⟨Expr.sound_literal h, rfl, Nat.lt_add_of_pos_right Nat.two_pos⟩
  · exact ⟨Expr.sound_unary h hrank he, rfl, Nat.lt_succ_self _⟩

mutual

theorem from_parseExpr : ∀ (fuel : Nat) {back : List Char} {s : State}, Stands source back s →
    From s (parseExpr fuel) (Parsed source back s.tok 0)
  | 0, _, _, _ => From.failHere
  | fuel + 1, back, s, hs => by
    rw [parseExpr]
    have hlevels := List.suffix_refl BinaryOp.levels
    refine (from_parseBinary fuel BinaryOp.levels hlevels hs).bind fun cond s1 h1 => ?_
    refine From.sees ?_
    split
    · next hmark =>
      refine (From.advance h1.stands).bind fun _ s2 h2 => ?_
      refine (from_parseExpr fuel h2.stands).bind fun yes s3 h3 => ?_
      refine (From.expect h3.stands _ _).bind fun _ s4 ⟨hcolon, h4⟩ => ?_
      refine (from_parseExpr fuel h4.stands).bind fun no s5 h5 => ?_
      obtain ⟨_, hread1⟩ := h1.stands.read
      obtain ⟨_, hread3⟩ := h3.stands.read
      have hyes := hread1.between hmark h1.beside h2.beside h3.solid h3.starts
      have hno := hread3.between hcolon h3.beside h4.beside h5.solid h5.starts
      have hlast := calc
        cond.span.stop ≤ s1.tok.writtenStart := h1.beside.le
        _ ≤ s1.tok.writtenStop := h1.stands.start_le_stop
        _ ≤ s2.tok.writtenStop := h2.stop_le
        _ ≤ s3.tok.writtenStop := h3.stop_le
        _ ≤ s4.tok.writtenStop := h4.stop_le
        _ ≤ no.span.stop := h5.longer
      refine From.pure (h1.through h5.stands hlast h5.beside rfl (Nat.zero_le _) ?_)
      exact Expr.sound_conditional (h1.placed.congr (.through (.refl _) _)) h1.rank_le hyes hno
        h1.sound h3.sound h5.sound
    · exact From.pure (h1.mono (Nat.zero_le _))
termination_by structural fuel => fuel

theorem from_parseBinary : ∀ (fuel : Nat) (levels : List (List BinaryOp)) {back : List Char}
    {s : State}, levels <:+ BinaryOp.levels → Stands source back s →
      From s (parseBinary fuel levels)
        (Parsed source back s.tok (BinaryOp.levels.length + 1 - levels.length))
  | 0, _, _, _, _, _ => From.failHere
  | fuel + 1, [], back, s, _, hs => from_parseUnary fuel hs
  | fuel + 1, level :: tighter, back, s, hlevels, hs => by
    rw [parseBinary]
    -- What the next tighter level finds is the first left operand of this one.
    have htighter := (List.suffix_cons level tighter).trans hlevels
    refine (from_parseBinary fuel tighter htighter hs).bind fun lhs s1 h1 => ?_
    refine from_parseOperators fuel level tighter hlevels (h1.mono ?_)
    rw [List.length_cons]
    omega
termination_by structural fuel => fuel

theorem from_parseOperators : ∀ (fuel : Nat) (level : List BinaryOp)
    (tighter : List (List BinaryOp)) {back : List Char} {t : Token} {lhs : Expr} {s : State},
      level :: tighter <:+ BinaryOp.levels →
        Parsed source back t (BinaryOp.levels.length + 1 - (level :: tighter).length) lhs s →
          From s (parseOperators fuel level tighter lhs)
            (Parsed source back t (BinaryOp.levels.length + 1 - (level :: tighter).length))
  | 0, _, _, _, _, _, _, _, _ => From.failHere
  | fuel + 1, level, tighter, back, t, lhs, s, hlevels, h => by
    rw [parseOperators]
    refine From.current ?_
    split
    · exact From.pure h
    · next op hop =>
      have htighter := (List.suffix_cons level tighter).trans hlevels
      refine (From.advance h.stands).bind fun _ s1 h1 => ?_
      refine (from_parseBinary fuel tighter htighter h1.stands).bind fun rhs s2 h2 => ?_
      refine from_parseOperators fuel level tighter hlevels ?_
      obtain ⟨_, hread⟩ := h.stands.read
      have hsymbol : s.tok.isSymbol op.text = true := by
        have hfound := List.find?_some hop
        exact hfound
      have hbetween := hread.between hsymbol h.beside h1.beside h2.solid h2.starts
      have hlevel := BinaryOp.level_of_suffix hlevels (List.mem_of_find?_eq_some hop)
      -- The left operand may be of this level, the right one is of the next tighter one at least.
      have hlhs := h.rank_le
      have hrhs := h2.rank_le
      rw [List.length_cons] at hlhs ⊢
      have hlast := calc
        lhs.span.stop ≤ s.tok.writtenStart := h.beside.le
        _ ≤ s.tok.writtenStop := h.stands.start_le_stop
        _ ≤ s1.tok.writtenStop := h1.stop_le
        _ ≤ rhs.span.stop := h2.longer
      have hrank : BinaryOp.levels.length + 1 - (tighter.length + 1) ≤ op.level + 1 := by omega
      refine h.through h2.stands hlast h2.beside rfl hrank ?_
      exact Expr.sound_binary (h.placed.congr (.through (.refl _) _)) (by omega) (by omega)
        hbetween h.sound h2.sound
termination_by structural fuel => fuel

theorem from_parseUnary : ∀ (fuel : Nat) {back : List Char} {s : State}, Stands source back s →
    From s (parseUnary fuel) (Parsed source back s.tok (BinaryOp.levels.length + 1))
  | 0, _, _, _ => From.failHere
  | fuel + 1, back, s, hs => by
    rw [parseUnary]
    refine From.current ?_
    extract_lets op?
    have hop : ∀ op, op? = some op → s.tok.kind = .symbol := by
      intro op h
      unfold op? at h
      split at h
      · next hminus => exact (Token.isSymbol_iff.1 hminus).1
      · split at h
        · next hnot => exact (Token.isSymbol_iff.1 hnot).1
        · cases h
    clear_value op?
    cases op? with
    | none => exact (from_parsePostfix fuel hs).mono fun _ _ h => h.mono (Nat.le_succ _)
    | some op =>
      have hkind := hop op rfl
      have hsolid := Token.solid_of_kind hkind nofun nofun
      refine (From.advance hs).bind fun _ s1 h1 => ?_
      refine (from_parseUnary fuel h1.stands).bind fun e s2 h2 => From.pure ?_
      have hstring : s.tok.kind ≠ .string := hkind.trans_ne nofun
      have hspan : (s.tok.span.through e.span).SameStart s.tok.outer := by
        rw [Token.outer_of_ne hstring]
        exact .through (.refl _) _
      have hlonger := Nat.le_trans h1.stop_le h2.longer
      have hstop : (s.tok.span.through e.span).stop = e.span.stop := by
        rw [Token.writtenStop_of_ne hstring] at hlonger
        exact Nat.max_eq_left hlonger
      obtain ⟨hsound, hsame, hrank⟩ := sound_negated (s.tok.span.through e.span) op
        ((hs.placed hsolid).congr hspan) h2.rank_le h2.sound
      refine ⟨h2.stands, hsolid, by rwa [hsame], ?_, ?_, hrank, hsound⟩
      · rwa [hsame, hstop]
      · rw [hsame, hstop]
        exact h2.beside
termination_by structural fuel => fuel

theorem from_parsePostfix : ∀ (fuel : Nat) {back : List Char} {s : State}, Stands source back s →
    From s (parsePostfix fuel) (Parsed source back s.tok tight)
  | 0, _, _, _ => From.failHere
  | fuel + 1, back, s, hs => by
    rw [parsePostfix]
    exact (from_parsePrimary fuel hs).bind fun e s1 h1 => from_parseSteps fuel h1
termination_by structural fuel => fuel

theorem from_parseSteps : ∀ (fuel : Nat) {back : List Char} {t : Token} {e : Expr} {s : State},
    Parsed source back t tight e s → From s (parseSteps fuel e) (Parsed source back t tight)
  | 0, _, _, _, _, _ => From.failHere
  | fuel + 1, back, t, e, s, h => by
    rw [parseSteps]
    refine From.current ?_
    have hstop := h.beside.le
    have hle := h.stands.start_le_stop
    split
    · next hdot =>
      refine (From.advance h.stands).bind fun _ s1 h1 => From.current ?_
      have hlater := h1.stop_le
      -- A step from the dot on ends where the token behind the dot ends.
      have hgo {s2 : State} (h2 : Onward source back s1 s2) (hstring : s1.tok.kind ≠ .string)
          {step : Step} (hspan : step.span = s.tok.span.through s1.tok.span) :
          Parsed source back t tight (e.follow step) s2 := by
        obtain ⟨hplaced, hend⟩ := h.stands.through hdot hstring (by omega)
        rw [← hspan] at hplaced hend
        exact h.follow h2.stands hplaced (by omega) (hend ▸ h2.beside)
      split
      · next hkind =>
        refine (From.advance h1.stands).bind fun _ s2 h2 => ?_
        exact from_parseSteps fuel (hgo h2 (hkind.trans_ne nofun) rfl)
      · next hkind =>
        split
        · exact From.failHere
        · refine (From.advance h1.stands).bind fun _ s2 h2 => ?_
          exact from_parseSteps fuel (hgo h2 (hkind.trans_ne nofun) rfl)
      · split
        · next hstar =>
          refine (From.advance h1.stands).bind fun _ s2 h2 => ?_
          have hend := Token.writtenStop_of_ne (Token.ne_string_of_isSymbol hstar)
          have hbeside := h2.beside
          rw [hend] at hbeside
          refine (from_parseSplatSteps fuel true h2.stands hbeside).bind fun each s3 h3 => ?_
          exact from_parseSteps fuel (h.splat (by omega) h3)
        · exact From.failHere
    · split
      · next hbracket =>
        refine From.opening h.stands fun s1 h1 => From.sees ?_
        have hopening := h1.stop_le
        split
        · refine (From.advance h1.stands).bind fun _ s2 h2 => ?_
          refine From.closing h2.stands _ _ fun s3 hclose h3 => ?_
          have hend := Token.writtenStop_of_ne (Token.ne_string_of_isSymbol hclose)
          have hbeside := h3.beside
          rw [hend] at hbeside
          have hclosing := h2.stop_le
          refine (from_parseSplatSteps fuel false h3.stands hbeside).bind fun each s4 h4 => ?_
          exact from_parseSteps fuel (h.splat (by omega) h4)
        · refine (from_parseExpr fuel h1.stands).bind fun key s2 h2 => ?_
          refine From.closing h2.stands _ _ fun s3 hclose h3 => ?_
          have hclosing := h2.stop_le
          have hstring := Token.ne_string_of_isSymbol hclose
          have hend := Token.writtenStop_of_ne hstring
          obtain ⟨hplaced, hspan⟩ := h.stands.through hbracket hstring (by omega)
          split
          · refine from_parseSteps fuel (h.follow h3.stands hplaced ?_ (hspan ▸ h3.beside))
            rw [Step.span, hspan]
            omega
          · refine from_parseSteps fuel (h.index h3.stands h2.sound (by omega) ?_)
            rw [← hend]
            exact h3.beside
      · exact From.pure h
termination_by structural fuel => fuel

theorem from_parseSplatSteps : ∀ (fuel : Nat) (attrsOnly : Bool) {back : List Char} {mark : Span}
    {s : State}, Stands source back s → Beside source mark.stop s.tok →
      From s (parseSplatSteps fuel attrsOnly) (Splatted source back mark)
  | 0, _, _, _, _, _, _ => From.failHere
  | fuel + 1, attrsOnly, back, mark, s, hs, hmark => by
    rw [parseSplatSteps]
    refine From.current ?_
    have hstop := hmark.le
    have hle := hs.start_le_stop
    split
    · next hdot =>
      refine From.peek fun ahead after hahead => ?_
      split
      · next hident =>
        rw [hs.source_eq] at hahead
        refine (From.advance hs).bind fun _ s1 h1 => From.current ?_
        have hsame : s1.tok = ahead := h1.ahead ahead after hahead (hident.trans_ne nofun)
        refine (From.advance h1.stands).bind fun _ s2 h2 => ?_
        have hlater := h1.stop_le
        have hbeside := h2.beside
        rw [hsame] at hlater hbeside
        obtain ⟨hplaced, hend⟩ := hs.through hdot (hident.trans_ne nofun) (by omega)
        rw [← hend] at hbeside
        refine (from_parseSplatSteps fuel attrsOnly h2.stands hbeside).bind fun rest s3 h3 => ?_
        exact From.pure (Splatted.cons h3 hplaced (by rw [Step.span]; omega))
      · exact From.pure (splatted_nil hs hmark)
    · split
      · next hbracket =>
        have hbracket := (Bool.and_eq_true_iff.1 hbracket).1
        refine From.get (From.opening hs fun s1 h1 => ?_)
        refine (from_parseExpr fuel h1.stands).bind fun key s2 h2 => From.leave (From.current ?_)
        -- An index that is not static is left for others, from the bracket on.
        split
        · split
          · next hclose =>
            refine (From.advance (h2.stands.nested _)).bind fun _ s3 h3 => ?_
            have h3 := h3.of_nested
            have hopening := h1.stop_le
            have hclosing := h2.stop_le
            have hstring : s2.tok.kind ≠ .string := Token.ne_string_of_isSymbol hclose
            obtain ⟨hplaced, hend⟩ := hs.through hbracket hstring (by omega)
            have hbeside := h3.beside
            rw [← hend] at hbeside
            have hlonger : mark.stop ≤ (s.tok.span.through s2.tok.span).stop := by omega
            refine (from_parseSplatSteps fuel attrsOnly h3.stands hbeside).bind fun rest s4 h4 => ?_
            exact From.pure (Splatted.cons h4 hplaced hlonger)
          · exact From.set (From.pure (splatted_nil hs hmark))
        · exact From.set (From.pure (splatted_nil hs hmark))
      · exact From.pure (splatted_nil hs hmark)
termination_by structural fuel => fuel

theorem from_parsePrimary : ∀ (fuel : Nat) {back : List Char} {s : State}, Stands source back s →
    From s (parsePrimary fuel) (Parsed source back s.tok tight)
  | 0, _, _, _ => From.failHere
  | fuel + 1, back, s, hs => by
    rw [parsePrimary]
    refine From.current ?_
    split
    · next hkind =>
      have hsolid := Token.solid_of_kind hkind nofun nofun
      have hspan := Token.outer_of_ne (t := s.tok) (hkind.trans_ne nofun)
      split
      · refine (From.advance hs).bind fun _ s1 h1 => From.pure ?_
        exact parsed_token hsolid h1 hspan.symm (Nat.le_refl _)
          (Expr.sound_literal (hspan ▸ hs.placed hsolid))
      · exact From.failHere
    · next hkind =>
      have hsolid := Token.solid_of_kind hkind nofun nofun
      have hspan : s.tok.outer = withQuotes s.tok.span := if_pos hkind
      obtain ⟨before, hread⟩ := hs.read
      refine (from_parseTemplate fuel hread.source_eq (within_of_read hread hkind)).bind ?_
      rintro parts _ ⟨rfl, hparts⟩
      refine (From.advance hs).bind fun _ s1 h1 => From.pure ?_
      exact parsed_token hsolid h1 hspan.symm (Nat.le_refl _)
        (Expr.sound_template (hspan ▸ hs.placed hsolid) hparts)
    · next hkind => exact from_parseNamed fuel hs hkind
    · next hkind =>
      have hsolid := Token.solid_of_kind hkind nofun nofun
      have hstring : s.tok.kind ≠ .string := hkind.trans_ne nofun
      split
      · refine From.opening hs fun s1 h1 => ?_
        refine (from_parseExpr fuel h1.stands).bind fun e s2 h2 => ?_
        refine From.closing h2.stands _ _ fun s3 hclose h3 => From.pure ?_
        refine parsed_enclosed hsolid hstring (h1.behind.parsed h2) hclose h3 rfl (Nat.le_refl _) ?_
        exact Expr.sound_parens (Token.placed_through (hs.placed hsolid) hstring _) h2.sound
      · split
        · exact from_parseTuple fuel hs hkind
        · split
          · exact from_parseObject fuel hs hkind
          · exact From.failHere
    · exact From.failHere
termination_by structural fuel => fuel

theorem from_parseNamed : ∀ (fuel : Nat) {back : List Char} {s : State}, Stands source back s →
    s.tok.kind = .ident → From s (parseNamed fuel s.tok) (Parsed source back s.tok tight)
  | 0, _, _, _, _ => From.failHere
  | fuel + 1, back, s, hs, hkind => by
    rw [parseNamed]
    have hsolid := Token.solid_of_kind hkind nofun nofun
    have hstring : s.tok.kind ≠ .string := hkind.trans_ne nofun
    have hspan := Token.outer_of_ne hstring
    have hplaced := hs.placed hsolid
    refine (From.advance hs).bind fun _ s1 h1 => ?_
    split
    · refine From.pure (parsed_token hsolid h1 hspan.symm (Nat.le_refl _) ?_)
      exact Expr.sound_literal (hspan ▸ hplaced)
    · refine (from_qualified fuel h1.behind).bind fun name s2 ⟨h2, hname⟩ => From.sees ?_
      split
      · refine From.opening h2.stands fun s3 h3 => ?_
        refine (from_parseArgs fuel (h2.goes h3)).bind ?_
        rintro ⟨args, expand⟩ s4 ⟨h4, hclose, hargs⟩
        refine From.closed h4.stands fun s5 h5 => From.pure ?_
        refine parsed_enclosed hsolid hstring h4 hclose h5 rfl (Nat.le_refl _) ?_
        exact Expr.sound_call (Token.placed_through hplaced hstring _) hargs
      · split
        · exact From.fail
        · next hsame =>
          rw [ne_eq, not_not] at hsame
          -- Without a call the name has to be a single word, so nothing was passed behind it.
          rcases hname with ⟨-, rfl⟩ | hlonger
          · refine From.pure (parsed_token hsolid h1 hspan.symm (Nat.le_refl _) ?_)
            exact Expr.sound_name (hspan ▸ hplaced)
          · rw [hsame] at hlonger
            exact absurd hlonger (Nat.lt_irrefl _)
termination_by structural fuel => fuel

theorem from_parseArgs : ∀ (fuel : Nat) {back : List Char} {place : Nat} {s : State},
    Behind source back place s → From s (parseArgs fuel) fun r s' =>
      Behind source back place s' ∧ s'.tok.isSymbol ")" = true ∧ ∀ e ∈ r.1, e.Sound source
  | 0, _, _, _, _ => From.failHere
  | fuel + 1, back, place, s, hs => by
    rw [parseArgs]
    refine From.sees ?_
    split
    · next hclose => exact From.pure ⟨hs, hclose, nofun⟩
    · refine (from_parseExpr fuel hs.stands).bind fun arg s1 h1 => From.current ?_
      have hbehind := hs.parsed h1
      split
      · refine (From.advance h1.stands).bind fun _ s2 h2 => From.sees ?_
        refine From.passing (hbehind.goes h2) fun s3 h3 => From.sees ?_
        split
        · next hclose =>
          exact From.pure ⟨h3, hclose, List.forall_mem_singleton.2 h1.sound⟩
        · exact From.failHere
      · refine From.separated hbehind fun s2 h2 => ?_
        refine (from_parseArgs fuel h2).bind ?_
        rintro ⟨args, expand⟩ s3 ⟨h3, hclose, hargs⟩
        exact From.pure ⟨h3, hclose, List.forall_mem_cons.2 ⟨h1.sound, hargs⟩⟩
termination_by structural fuel => fuel

theorem from_parseTuple : ∀ (fuel : Nat) {back : List Char} {s : State}, Stands source back s →
    s.tok.kind = .symbol → From s (parseTuple fuel s.tok.span) (Parsed source back s.tok tight)
  | 0, _, _, _, _ => From.failHere
  | fuel + 1, back, s, hs, hkind => by
    rw [parseTuple]
    have hsolid := Token.solid_of_kind hkind nofun nofun
    have hstring : s.tok.kind ≠ .string := hkind.trans_ne nofun
    refine From.opening hs fun s1 h1 => From.seesWord ?_
    split
    · exact from_parseFor fuel false hkind (hs.placed hsolid) h1.behind
    · refine (from_parseItems fuel h1.behind).bind fun items s2 ⟨h2, hclose, hitems⟩ => ?_
      refine From.closed h2.stands fun s3 h3 => From.pure ?_
      refine parsed_enclosed hsolid hstring h2 hclose h3 rfl (Nat.le_refl _) ?_
      exact Expr.sound_tuple (Token.placed_through (hs.placed hsolid) hstring _) hitems
termination_by structural fuel => fuel

theorem from_parseItems : ∀ (fuel : Nat) {back : List Char} {place : Nat} {s : State},
    Behind source back place s → From s (parseItems fuel) fun items s' =>
      Behind source back place s' ∧ s'.tok.isSymbol "]" = true ∧ ∀ e ∈ items, e.Sound source
  | 0, _, _, _, _ => From.failHere
  | fuel + 1, back, place, s, hs => by
    rw [parseItems]
    refine From.sees ?_
    split
    · next hclose => exact From.pure ⟨hs, hclose, nofun⟩
    · refine (from_parseExpr fuel hs.stands).bind fun item s1 h1 => From.current ?_
      refine From.separated (hs.parsed h1) fun s2 h2 => ?_
      refine (from_parseItems fuel h2).bind fun items s3 ⟨h3, hclose, hitems⟩ => ?_
      exact From.pure ⟨h3, hclose, List.forall_mem_cons.2 ⟨h1.sound, hitems⟩⟩
termination_by structural fuel => fuel

theorem from_parseObject : ∀ (fuel : Nat) {back : List Char} {s : State}, Stands source back s →
    s.tok.kind = .symbol → From s (parseObject fuel s.tok.span) (Parsed source back s.tok tight)
  | 0, _, _, _, _ => From.failHere
  | fuel + 1, back, s, hs, hkind => by
    rw [parseObject]
    have hsolid := Token.solid_of_kind hkind nofun nofun
    have hstring : s.tok.kind ≠ .string := hkind.trans_ne nofun
    refine From.get (From.modify ((From.advance (hs.nested 0)).bind fun _ s1 h1 => ?_))
    refine (From.skipNewlines h1.stands).bind fun _ s2 ⟨h2, hgo⟩ => From.seesWord ?_
    have hbehind : Behind source back s.tok.writtenStop s2 := ⟨h2, (hgo _ h1.beside).le⟩
    refine From.choosing (fun _ => Behind source back s.tok.writtenStop)
      (fun comprehension s3 h3 => ?_) (fun _ => hbehind) fun _ hrest =>
        From.peek fun ahead _ _ => hrest _ s2 hbehind
    beta_reduce
    split
    · exact From.modify (from_parseFor fuel true hkind (hs.placed hsolid) (h3.nested _))
    · refine (from_parseEntries fuel h3).bind fun items s4 ⟨h4, hclose, hitems⟩ => ?_
      refine From.modify (From.current ?_)
      refine (From.advance (h4.stands.nested _)).bind fun _ s5 h5 => From.pure ?_
      refine parsed_enclosed hsolid hstring h4 hclose h5.of_nested rfl (Nat.le_refl _) ?_
      exact Expr.sound_object (Token.placed_through (hs.placed hsolid) hstring _) hitems
termination_by structural fuel => fuel

theorem from_parseEntries : ∀ (fuel : Nat) {back : List Char} {place : Nat} {s : State},
    Behind source back place s → From s (parseEntries fuel) fun items s' =>
      Behind source back place s' ∧ s'.tok.isSymbol "\x7d" = true ∧
        ∀ item ∈ items, SoundKey source item.1 ∧ item.2.Sound source
  | 0, _, _, _, _ => From.failHere
  | fuel + 1, back, place, s, hs => by
    rw [parseEntries]
    refine (From.passNewlines hs).bind fun _ s1 h1 => From.sees ?_
    split
    · next hclose => exact From.pure ⟨h1, hclose, nofun⟩
    · refine (from_parseKey fuel h1).bind fun key s2 ⟨h2, hkey⟩ => From.current ?_
      split
      · refine (From.advance h2.stands).bind fun _ s3 h3 => ?_
        refine (from_parseExpr fuel h3.stands).bind fun value s4 h4 => From.current ?_
        refine From.separated ((h2.goes h3).parsed h4) fun s5 h5 => ?_
        refine (from_parseEntries fuel h5).bind fun entries s6 ⟨h6, hclose, hentries⟩ => ?_
        exact From.pure ⟨h6, hclose, List.forall_mem_cons.2 ⟨⟨hkey, h4.sound⟩, hentries⟩⟩
      · exact From.failHere
termination_by structural fuel => fuel

theorem from_parseKey : ∀ (fuel : Nat) {back : List Char} {place : Nat} {s : State},
    Behind source back place s → From s (parseKey fuel) fun key s' =>
      Behind source back place s' ∧ SoundKey source key
  | 0, _, _, _, _ => From.failHere
  | fuel + 1, back, place, s, hs => by
    rw [parseKey]
    refine From.current ?_
    refine From.choosing (fun bare s' => s' = s ∧ (bare = true → s.tok.kind = .ident)) ?_
      (fun _ => ⟨rfl, nofun⟩) fun hkind hrest =>
        From.peek fun ahead _ _ => hrest _ s ⟨rfl, fun _ => hkind⟩
    rintro bare s' ⟨rfl, hbare⟩
    beta_reduce
    split
    · next h =>
      have hkind := hbare h
      have hplaced := hs.stands.placed (Token.solid_of_kind hkind nofun nofun)
      rw [Token.outer_of_ne (hkind.trans_ne nofun)] at hplaced
      refine (From.advance hs.stands).bind fun _ s1 h1 => From.pure ⟨hs.goes h1, ?_, nofun⟩
      rintro _ _ ⟨⟩
      exact hplaced
    · refine (from_parseExpr fuel hs.stands).bind fun e s1 h1 => ?_
      refine From.pure ⟨hs.parsed h1, nofun, ?_⟩
      rintro _ ⟨⟩
      exact h1.sound
termination_by structural fuel => fuel

/-- The bracket that was opened is at a token before. -/
theorem from_parseFor : ∀ (fuel : Nat) (object : Bool) {back : List Char} {t : Token} {s : State},
    t.kind = .symbol → t.outer.Placed source → Behind source back t.writtenStop s →
      From s (parseFor fuel t.span object) (Parsed source back t tight)
  | 0, _, _, _, _, _, _, _ => From.failHere
  | fuel + 1, object, back, t, s, hkind, hplaced, hs => by
    rw [parseFor]
    have hsolid := Token.solid_of_kind hkind nofun nofun
    have hstring : t.kind ≠ .string := hkind.trans_ne nofun
    refine (From.advance hs.stands).bind fun _ s1 h1 => ?_
    refine (From.expectName h1.stands _).bind fun first s2 ⟨_, h2⟩ => From.sees ?_
    have h2 := (hs.goes h1).goes h2
    refine From.choosing (fun _ => Behind source back t.writtenStop) (fun second s3 h3 => ?_)
      (fun _ => h2) fun _ hrest => (From.advance h2.stands).bind fun _ s3 h3 =>
        (From.expectName h3.stands _).bind fun name s4 ⟨_, h4⟩ =>
          hrest _ s4 ((h2.goes h3).goes h4)
    refine From.seesWord (From.guarded fun _ => ?_)
    refine (From.advance h3.stands).bind fun _ s4 h4 => ?_
    refine (from_parseExpr fuel h4.stands).bind fun collection s5 h5 => ?_
    refine (From.expect h5.stands _ _).bind fun _ s6 ⟨_, h6⟩ => ?_
    have h6 := ((h3.goes h4).parsed h5).goes h6
    refine From.choosing (fun key s' => Behind source back t.writtenStop s' ∧
      ∀ e ∈ key, e.Sound source) ?_ (fun _ => ⟨h6, nofun⟩) fun _ hrest =>
        (from_parseExpr fuel h6.stands).bind fun e s7 h7 =>
          (From.expect h7.stands _ _).bind fun _ s8 ⟨_, h8⟩ =>
            hrest _ s8 ⟨(h6.parsed h7).goes h8, fun _ hx => Option.some.inj hx ▸ h7.sound⟩
    rintro key s7 ⟨h7, hkey⟩
    refine (from_parseExpr fuel h7.stands).bind fun value s8 h8 => ?_
    refine From.choosing (fun _ => Behind source back t.writtenStop) (fun group s9 h9 => ?_)
      (fun _ => h7.parsed h8) fun _ hrest => From.sees (hrest _ s8 (h7.parsed h8))
    refine From.passing h9 fun s10 h10 => From.seesWord ?_
    refine From.choosing (fun cond s' => Behind source back t.writtenStop s' ∧
      ∀ e ∈ cond, e.Sound source) ?_ (fun _ => ⟨h10, nofun⟩) fun _ hrest =>
        (From.advance h10.stands).bind fun _ s11 h11 =>
          (from_parseExpr fuel h11.stands).bind fun e s12 h12 =>
            hrest _ s12 ⟨(h10.goes h11).parsed h12, fun _ hx => Option.some.inj hx ▸ h12.sound⟩
    rintro cond s11 ⟨h11, hcond⟩
    refine From.closing h11.stands _ _ fun s12 hclose h12 => From.pure ?_
    refine parsed_enclosed hsolid hstring h11 hclose h12 rfl (Nat.le_refl _) ?_
    exact Expr.sound_forEach (Token.placed_through hplaced hstring _) h5.sound hkey h8.sound hcond
termination_by structural fuel => fuel

theorem from_parseTemplate : ∀ (fuel : Nat) {more : List Char} {span : Span} {cs : List Char}
    {offset : Nat} {s : State}, span.source = source → Within source more cs offset →
      From s (parseTemplate fuel span cs offset) fun parts s' =>
        s' = s ∧ ∀ e, .interp e ∈ parts → e.Sound source
  | 0, _, _, _, _, _, _, _ => From.failHere
  | fuel + 1, more, span, cs, offset, s, hspan, hwithin => by
    rw [parseTemplate]
    refine From.lift fun chunk hchunk => ?_
    extract_lets head
    have hhead : ∀ e, TemplatePart.interp e ∉ head := by
      intro e he
      unfold head at he
      split at he
      · cases he
      · cases List.mem_singleton.1 he
    clear_value head
    split
    · exact From.pure ⟨rfl, fun e he => absurd he (hhead e)⟩
    · next rest place hrest =>
      obtain ⟨passed, hmarks⟩ := marks_of_readChunk hchunk hrest
      refine From.get (From.lift fun inner hinner => From.set ?_)
      rw [hspan] at hinner
      have h1 := stands_start (hwithin.lexed hmarks) hinner
      refine (from_parseExpr fuel h1).bind fun e s1 h2 => From.sees (From.guarded fun _ => ?_)
      refine From.get (From.set ?_)
      refine (from_parseTemplate fuel hspan h2.stands.within).bind ?_
      rintro tail _ ⟨rfl, htail⟩
      refine From.pure ⟨rfl, fun e' he' => ?_⟩
      rcases List.mem_append.1 he' with hmem | hmem
      · exact absurd hmem (hhead e')
      · rcases List.mem_cons.1 hmem with hsame | hmem
        · cases hsame
          exact h2.sound
        · exact htail e' hmem
termination_by structural fuel => fuel

end

end StaticConfig.Parser

/-!
The tree of an expression has the precedence and associativity of its operators: binary operators of
one level are put together from the left, those of a tighter level first, and no operand is put in
parentheses that the source does not have.
-/
namespace StaticConfig

namespace Expr

/-- Operators in the expression are applied by precedence, and there is nothing but them between
their operands. -/
structure Precedence (source : Source) (e : Expr) : Prop where
  binary : ∀ span op lhs rhs, .binary span op lhs rhs ∈ e.parts →
    (∀ inner ∈ lhs.operator?, op.level ≤ inner.level) ∧
      (∀ inner ∈ rhs.operator?, op.level < inner.level) ∧
        lhs.isConditional = false ∧ rhs.isConditional = false ∧
          source.Between lhs.span rhs.span op.text
  unary : ∀ span op operand, .unary span op operand ∈ e.parts →
    operand.operator? = none ∧ operand.isConditional = false
  subject : ∀ p ∈ e.parts, ∀ x ∈ p.subject?,
    x.isUnary = false ∧ x.operator? = none ∧ x.isConditional = false
  conditional : ∀ span cond yes no, .conditional span cond yes no ∈ e.parts →
    cond.isConditional = false ∧ source.Between cond.span yes.span "?" ∧
      source.Between yes.span no.span ":"

theorem Sound.precedence {source : Source} {e : Expr} (h : e.Sound source) :
    e.Precedence source := by
  constructor
  · intro span op lhs rhs hmem
    obtain ⟨hlhs, hrhs, hbetween⟩ := (h _ hmem).arranged
    refine ⟨le_level_of_rank hlhs, le_level_of_rank hrhs, ?_, ?_, hbetween⟩
    · exact isConditional_of_rank (by omega)
    · exact isConditional_of_rank (by omega)
  · intro span op operand hmem
    have hrank : BinaryOp.levels.length < operand.rank := (h _ hmem).arranged
    exact ⟨operator?_of_rank hrank, isConditional_of_rank (by omega)⟩
  · intro p hmem x hx
    have harranged := (h p hmem).arranged
    have hrank : BinaryOp.levels.length + 1 < x.rank := by
      cases p with
      | relative | index | splat => exact harranged x hx
      | _ => cases hx
    exact ⟨isUnary_of_rank hrank, operator?_of_rank (by omega), isConditional_of_rank (by omega)⟩
  · intro span cond yes no hmem
    obtain ⟨hrank, hyes, hno⟩ := (h _ hmem).arranged
    exact ⟨isConditional_of_rank hrank, hyes, hno⟩

end Expr

namespace Parser

theorem sound_of_expression {source : Source} {e : Expr} (h : expression source = .ok e) :
    e.Sound source := by
  obtain ⟨s, hstart, h⟩ := Except.bind_eq_ok.1 h
  have hs := stands_start .whole hstart
  obtain ⟨r, hrun, rfl⟩ := Except.map_eq_ok.1 h
  refine (?_ : From s _ fun (e : Expr) _ => e.Sound source) r hrun
  refine (From.skipNewlines hs).bind fun _ s1 ⟨h1, _⟩ => ?_
  refine (from_parseExpr (depthBound source) h1).bind fun e s2 h2 => ?_
  refine (From.skipNewlines h2.stands).bind fun _ s3 _ => From.current ?_
  exact From.guarded fun _ => From.pure h2.sound

/-- Every expression that the parser accepts has its operators applied by precedence, from the left,
and none of them and of their operands is lost or moved. -/
theorem precedence_of_expression {source : Source} {e : Expr} (h : expression source = .ok e) :
    e.Precedence source :=
  (sound_of_expression h).precedence

/-- An index binds more tightly than a negation, and so on up to the choice. -/
theorem precedence_of_expression_choice :
    ∃ e, expression ⟨"main.tf", "!a[b] && c ? d - e * f - g : h"⟩ = .ok e ∧
      e.isConditional = true ∧ e.parts.filterMap Expr.operator? = [.and, .sub, .sub, .mul] ∧
        e.Precedence ⟨"main.tf", "!a[b] && c ? d - e * f - g : h"⟩ := by
  have hshape : (expression ⟨"main.tf", "!a[b] && c ? d - e * f - g : h"⟩).toOption.map
      (fun e => (e.isConditional, e.parts.filterMap Expr.operator?)) =
        some (true, [.and, .sub, .sub, .mul]) := by
    decide +kernel
  cases hparse : expression ⟨"main.tf", "!a[b] && c ? d - e * f - g : h"⟩ with
  | error fault =>
    rw [hparse] at hshape
    cases hshape
  | ok e =>
    rw [hparse] at hshape
    obtain ⟨hconditional, hoperators⟩ := Prod.mk.inj (Option.some.inj hshape)
    exact ⟨e, rfl, hconditional, hoperators, precedence_of_expression hparse⟩

end Parser

end StaticConfig
