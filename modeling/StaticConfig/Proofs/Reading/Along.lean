import StaticConfig.Proofs.Reading.Bounds
import StaticConfig.Proofs.Reading.Chunks
import StaticConfig.Proofs.Reading.Marked
import StaticConfig.Proofs.Reading.Tails

/-!
Parsers of expressions that go along with each other. Each function of the parser takes states that
belong together to such states again, and what both find is the same but for ranges, unless there is
a mark in what the first one finds.
-/
namespace StaticConfig.Parser

open StaticConfig.Expr (Tears StepsTear unplacedAll unplacedItems unplacedTemplate partsOfAll
  partsOfItems)

/-! Two parsers that read the same text, each from another place, are the simplest ones of these. -/

/-- The tokens and the texts behind them are the same. -/
def Twin (found found' : Token × Cursor) : Prop :=
  found.1.kind = found'.1.kind ∧ found.1.text = found'.1.text ∧ found.2.rest = found'.2.rest

/-- The places that the text is read from do not matter. -/
theorem twin_next (source source' : Source) {pos pos' : Cursor} {found : Token × Cursor}
    (hrest : pos.rest = pos'.rest) (h : Lexer.next source pos = .ok found) :
    ∃ found', Lexer.next source' pos' = .ok found' ∧ Twin found found' := by
  obtain ⟨tok, after⟩ := found
  have hlexes := Lexer.lexes_of_eq_ok h
  rw [hrest] at hlexes
  obtain ⟨span, after', hnext, hafter⟩ := hlexes source' pos'.offset pos'.line pos'.col
  exact ⟨_, hnext, rfl, rfl, hafter.symm⟩

theorem twin_significant (source source' : Source) {limit : Nat}
    {found found' last : Token × Cursor} (htwin : Twin found found')
    (h : significant source limit found = .ok last) :
    ∃ last', significant source' limit found' = .ok last' ∧ Twin last last' := by
  induction limit generalizing found found' with
  | zero =>
    cases h
    exact ⟨found', rfl, htwin⟩
  | succ limit ih =>
    rw [significant] at h ⊢
    rw [← htwin.1]
    split at h
    · next hline =>
      obtain ⟨behind, hnext, h⟩ := Except.bind_eq_ok.1 h
      obtain ⟨behind', hnext', hbehind⟩ := twin_next source source' htwin.2.2 hnext
      rw [if_pos hline, hnext']
      exact ih hbehind h
    · next hline =>
      cases h
      rw [if_neg hline]
      exact ⟨found', rfl, htwin⟩

theorem twin_fetch (source source' : Source) {nested : Bool} {pos pos' : Cursor}
    {found : Token × Cursor} (hrest : pos.rest = pos'.rest)
    (h : fetch source nested pos = .ok found) :
    ∃ found', fetch source' nested pos' = .ok found' ∧ Twin found found' := by
  obtain ⟨first, hnext, h⟩ := Except.bind_eq_ok.1 h
  obtain ⟨first', hnext', htwin⟩ := twin_next source source' hrest hnext
  rw [fetch, hnext']
  change ∃ found', (if nested && first'.1.kind == .newline then
    significant source' (first'.2.rest.length + 1) first' else pure first') = _ ∧ _
  rw [← htwin.1, ← htwin.2.2]
  split at h
  · next hline =>
    rw [if_pos hline]
    exact twin_significant source source' htwin h
  · next hline =>
    cases h
    rw [if_neg hline]
    exact ⟨first', rfl, htwin⟩

/-- Both parsers read the same text and count the same nesting. -/
def Tandem.twins : Tandem where
  Goes _ s t := Twin (s.tok, s.cursor) (t.tok, t.cursor)
  Nests _ n m := n = m
  Torn _ := False
  alike h := .inl ⟨h.1, h.2.1⟩
  nested _ _ h := h
  deeper _ h := congrArg (· + 1) h
  lined := rfl
  fetched {_ _ s t _ _} h _ hnests hfetch := by
    obtain ⟨⟨tok', cursor'⟩, hfetch', htwin⟩ := twin_fetch s.source t.source h.2.2 hfetch
    rw [hnests] at hfetch'
    exact ⟨tok', cursor', hfetch', htwin⟩
  skipped {_ s t _ _} h _ _ hfound := by
    obtain ⟨⟨tok', cursor'⟩, hfound', htwin⟩ := twin_significant s.source t.source h hfound
    have hlength : s.cursor.rest.length = t.cursor.rest.length := congrArg List.length h.2.2
    rw [hlength] at hfound'
    exact ⟨tok', cursor', hfound', htwin⟩
  peeked {_ s t _ _} h _ _ hnext := by
    obtain ⟨⟨tok', cursor'⟩, hnext', htwin⟩ := twin_next s.source t.source h.2.2 hnext
    exact ⟨tok', cursor', hnext', .inl ⟨htwin.1, htwin.2.1⟩⟩
  torn {_ s t _ _} h _ hnext := by
    obtain ⟨⟨tok', cursor'⟩, hnext', htwin⟩ := twin_next s.source t.source h.2.2 hnext
    exact ⟨tok', cursor', hnext', .inl (.inl ⟨htwin.1, htwin.2.1⟩)⟩

theorem twins_start (source source' : Source) {pos pos' : Cursor} {nesting : Nat} {s : State}
    (hrest : pos.rest = pos'.rest) (h : start source pos nesting = .ok s) :
    ∃ t, start source' pos' nesting = .ok t ∧ Tandem.twins.At [] nesting nesting s t := by
  obtain ⟨⟨tok, cursor⟩, hfetch, hs⟩ := Except.bind_eq_ok.1 h
  cases hs
  obtain ⟨⟨tok', cursor'⟩, hfetch', htwin⟩ := twin_fetch source source' hrest hfetch
  exact ⟨⟨source', cursor', tok', nesting⟩, by rw [start, hfetch']; rfl, htwin, rfl, rfl⟩

/-- Without tears there are no marks. -/
theorem not_tears_twins (ps : List Expr) : ¬Tears Tandem.twins.Torn ps := by
  rintro ⟨_, _, _, _, _, htorn⟩
  exact htorn

/-! Where a splat ends at an index with a mark in it, the index follows the splat, mark and all. -/

/-- Here an index follows, and in its key there is a mark. -/
def Pending (Torn : Span → Prop) (s : State) : Prop :=
  s.tok.isSymbol "[" = true ∧ ∃ s1 fuel key s2,
    advance.run { s with nesting := s.nesting + 1 } = .ok ((), s1) ∧
      (parseExpr fuel).run s1 = .ok (key, s2) ∧ Tears Torn key.parts

theorem From.run {α β : Type} {s s' : State} {p : Parse α} {f : α → Parse β} {a : α}
    {Q : β → State → Prop} (h : p.run s = .ok (a, s')) (hf : From s' (f a) Q) :
    From s (p >>= f) Q := by
  intro r hr
  rw [StateT.run_bind, h] at hr
  exact hf r hr

theorem Pending.parseSteps {Torn : Span → Prop} {s : State} (h : Pending Torn s) (fuel : Nat)
    (e : Expr) : From s (parseSteps fuel e) fun e _ => Tears Torn e.parts := by
  obtain ⟨hmark, s1, more, key, s2, hadvance, hkey, htears⟩ := h
  cases fuel with
  | zero => exact .failHere
  | succ fuel =>
    have hdot : s.tok.isSymbol "." = false := by
      rw [Token.isSymbol_iff] at hmark
      rw [Token.isSymbol, hmark.2]
      exact Bool.and_false _
    rw [Parser.parseSteps]
    refine .current ?_
    rw [hdot, hmark, if_neg (by decide), if_pos rfl]
    refine .enter (.run hadvance (.sees ?_))
    split
    · next hstar => exact (Barren.parseExpr (.inr hstar) more _ hkey).elim
    · have hsame : From s1 (parseExpr fuel) fun k _ => k = key := by
        intro r hr
        rw [eq_of_parseExpr hr hkey]
      refine hsame.bind ?_
      rintro _ s3 rfl
      refine Results.from (.after fun _ => .after fun _ => .after fun _ => ?_)
      rw [Expr.literal?_eq_none_of_tears htears]
      refine tears_parseSteps fuel ?_
      rw [Expr.parts, Expr.tears_cons, Expr.tears_append]
      exact .inr (.inr htears)

/-- Both parsers come to results that look the same and to states that belong together, unless there
is a mark in the result of the first one. -/
abbrev Tandem.Joint {α β : Type} (T : Tandem) (K : List String) (n m : Nat) (look : α → β)
    (parts : α → List Expr) (s t : State) (p q : Parse α) : Prop :=
  Pairs s t p q (fun a s' b t' => look a = look b ∧ T.At K n m s' t') fun a _ =>
    Tears T.Torn (parts a)

theorem along_qualified : ∀ (limit : Nat) {T : Tandem} {K : List String} {n m : Nat} {s t : State}
    (name : String), T.Nests K n m → T.At K n m s t →
      Pairs s t (qualified limit name) (qualified limit name)
        (fun a s' b t' => a = b ∧ T.At K n m s' t') Clean
  | 0, _, _, _, _, _, _, _, _, _ => .failHere
  | limit + 1, T, K, n, m, s, t, name, hn, h => by
    rw [qualified]
    refine h.sees (by decide) (.ite (fun hcolons => ?_) fun _ => .pure ⟨rfl, h⟩)
    refine h.symbol hn hcolons (by decide) fun s1 t1 h1 => ?_
    exact h1.expectName hn fun part s2 t2 h2 => along_qualified limit _ hn h2

mutual

theorem along_parseExpr : ∀ (fuel : Nat) {T : Tandem} {K : List String} {n m : Nat} {s t : State},
    T.Nests K n m → T.At K n m s t →
      T.Joint K n m Expr.unplaced Expr.parts s t (parseExpr fuel) (parseExpr fuel)
  | 0, _, _, _, _, _, _, _, _ => .failHere
  | fuel + 1, T, K, n, m, s, t, hn, h => by
    rw [parseExpr]
    refine (along_parseBinary fuel BinaryOp.levels hn h).bind ?_ fun cond s1 hmark => ?_
    · rintro cond s1 cond' t1 ⟨hcond, h1⟩
      refine h1.sees (by decide) (.ite (fun hquestion => ?_) fun _ => .pure ⟨hcond, h1⟩)
      refine h1.symbol hn hquestion (by decide) fun s2 t2 h2 => ?_
      refine (along_parseExpr fuel hn h2).bind ?_ fun yes s3 hmark =>
        Results.from (.after fun _ => .after fun no => .pure (by simp [Expr.parts, hmark]))
      rintro yes s3 yes' t3 ⟨hyes, h3⟩
      refine h3.expect (fun hcolon => .symbol hcolon (by decide)) hn fun s4 t4 _ h4 => ?_
      refine (along_parseExpr fuel hn h4).bind ?_ fun no s5 hmark =>
        Results.from (.pure (by simp [Expr.parts, hmark]))
      rintro no s5 no' t5 ⟨hno, h5⟩
      exact .pure ⟨by rw [Expr.unplaced, hcond, hyes, hno, ← Expr.unplaced], h5⟩
    · refine Results.from ?_
      refine .after fun _ => .ite ?_ (.pure hmark)
      exact .after fun _ => .after fun yes => .after fun _ => .after fun no =>
        .pure (by simp [Expr.parts, hmark])
termination_by structural fuel => fuel

theorem along_parseBinary : ∀ (fuel : Nat) (levels : List (List BinaryOp)) {T : Tandem}
    {K : List String} {n m : Nat} {s t : State}, T.Nests K n m → T.At K n m s t →
      T.Joint K n m Expr.unplaced Expr.parts s t (parseBinary fuel levels)
        (parseBinary fuel levels)
  | 0, _, _, _, _, _, _, _, _, _ => .failHere
  | fuel + 1, [], T, K, n, m, s, t, hn, h => along_parseUnary fuel hn h
  | fuel + 1, level :: tighter, T, K, n, m, s, t, hn, h => by
    rw [parseBinary]
    refine (along_parseBinary fuel tighter hn h).bind ?_ fun lhs s1 hmark =>
      Results.from (tears_parseOperators fuel level tighter hmark)
    rintro lhs s1 lhs' t1 ⟨hlhs, h1⟩
    exact along_parseOperators fuel level tighter hlhs hn h1
termination_by structural fuel => fuel

theorem along_parseOperators : ∀ (fuel : Nat) (level : List BinaryOp)
    (tighter : List (List BinaryOp)) {T : Tandem} {K : List String} {n m : Nat} {s t : State}
    {lhs lhs' : Expr}, lhs.unplaced = lhs'.unplaced → T.Nests K n m → T.At K n m s t →
      T.Joint K n m Expr.unplaced Expr.parts s t (parseOperators fuel level tighter lhs)
        (parseOperators fuel level tighter lhs')
  | 0, _, _, _, _, _, _, _, _, _, _, _, _, _ => .failHere
  | fuel + 1, level, tighter, T, K, n, m, s, t, lhs, lhs', hlhs, hn, h => by
    rw [parseOperators, parseOperators]
    refine .current ?_
    have hbrace (op : BinaryOp) : op.text ≠ "\x7d" := by cases op <;> decide
    have hfind : (level.find? fun op => t.tok.isSymbol op.text) =
        level.find? fun op => s.tok.isSymbol op.text := by
      congr 1
      funext op
      exact h.alike.isSymbol (hbrace op)
    rw [hfind]
    cases hop : level.find? fun op => s.tok.isSymbol op.text with
    | none => exact .pure ⟨hlhs, h⟩
    | some op =>
      have hno : ∀ b ∈ brackets, op.text ≠ b.1 ∧ op.text ≠ b.2 := by cases op <;> decide
      refine h.symbol hn (by simpa using List.find?_some hop) hno fun s1 t1 h1 => ?_
      refine (along_parseBinary fuel tighter hn h1).bind ?_ fun rhs s2 hmark =>
        Results.from (tears_parseOperators fuel level tighter (by simp [Expr.parts, hmark]))
      rintro rhs s2 rhs' t2 ⟨hrhs, h2⟩
      refine along_parseOperators fuel level tighter ?_ hn h2
      rw [Expr.unplaced, hlhs, hrhs, ← Expr.unplaced]
termination_by structural fuel => fuel

theorem along_parseUnary : ∀ (fuel : Nat) {T : Tandem} {K : List String} {n m : Nat} {s t : State},
    T.Nests K n m → T.At K n m s t →
      T.Joint K n m Expr.unplaced Expr.parts s t (parseUnary fuel) (parseUnary fuel)
  | 0, _, _, _, _, _, _, _, _ => .failHere
  | fuel + 1, T, K, n, m, s, t, hn, h => by
    rw [parseUnary]
    refine .current ?_
    rw [h.alike.isSymbol (by decide), h.alike.isSymbol (by decide)]
    extract_lets op?
    have hop : ∀ op, op? = some op → ∃ symbol, s.tok.isSymbol symbol = true ∧
        ∀ b ∈ brackets, symbol ≠ b.1 ∧ symbol ≠ b.2 := by
      intro op h
      unfold op? at h
      split at h
      · next hminus => exact ⟨"-", hminus, by decide⟩
      · split at h
        · next hnot => exact ⟨"!", hnot, by decide⟩
        · cases h
    clear_value op?
    cases op? with
    | none => exact along_parsePostfix fuel hn h
    | some op =>
      obtain ⟨symbol, hsymbol, hno⟩ := hop op rfl
      refine h.symbol hn hsymbol hno fun s1 t1 h1 => ?_
      refine (along_parseUnary fuel hn h1).bind ?_ fun e s2 hmark =>
        From.pure (Expr.tears_negated hmark _ op)
      rintro e s2 e' t2 ⟨he, h2⟩
      exact .pure ⟨by rw [Expr.unplaced_negated, Expr.unplaced_negated, he], h2⟩
termination_by structural fuel => fuel

theorem along_parsePostfix : ∀ (fuel : Nat) {T : Tandem} {K : List String} {n m : Nat}
    {s t : State}, T.Nests K n m → T.At K n m s t →
      T.Joint K n m Expr.unplaced Expr.parts s t (parsePostfix fuel) (parsePostfix fuel)
  | 0, _, _, _, _, _, _, _, _ => .failHere
  | fuel + 1, T, K, n, m, s, t, hn, h => by
    rw [parsePostfix]
    refine (along_parsePrimary fuel hn h).bind ?_ fun e s1 hmark =>
      Results.from (tears_parseSteps fuel hmark)
    rintro e s1 e' t1 ⟨he, h1⟩
    exact along_parseSteps fuel he hn h1
termination_by structural fuel => fuel

theorem along_parseSteps : ∀ (fuel : Nat) {T : Tandem} {K : List String} {n m : Nat} {s t : State}
    {e e' : Expr}, e.unplaced = e'.unplaced → T.Nests K n m → T.At K n m s t →
      T.Joint K n m Expr.unplaced Expr.parts s t (parseSteps fuel e) (parseSteps fuel e')
  | 0, _, _, _, _, _, _, _, _, _, _, _ => .failHere
  | fuel + 1, T, K, n, m, s, t, e, e', he, hn, h => by
    rw [parseSteps, parseSteps]
    refine .current ?_
    have hfollow {step step' : Step} (hstep : step.unplaced = step'.unplaced) :
        (e.follow step).unplaced = (e'.follow step').unplaced := by
      rw [Expr.unplaced_follow, Expr.unplaced_follow, he, hstep]
    have hsplat {mark mark' : Span} {each each' : List Step}
        (heach : each.map Step.unplaced = each'.map Step.unplaced) :
        (splat e mark each).unplaced = (splat e' mark' each').unplaced := by
      rw [Expr.unplaced_splat, Expr.unplaced_splat, he, heach]
    rw [h.alike.isSymbol (by decide), h.alike.isSymbol (by decide)]
    refine .ite (fun hdot => ?_) fun _ => .ite (fun hopen => ?_) fun _ => .pure ⟨he, h⟩
    · refine h.symbol hn hdot (by decide) fun s1 t1 h1 => .current ?_
      split
      · next hident =>
        obtain ⟨hkind, htext⟩ := h1.alike.eq_of_ne (by rw [hident]; exact nofun)
        rw [hkind, hident, htext]
        refine h1.advance (.plain (by rw [hident]; decide)) hn fun s2 t2 h2 => ?_
        exact along_parseSteps fuel (hfollow rfl) hn h2
      · next hnumber =>
        obtain ⟨hkind, htext⟩ := h1.alike.eq_of_ne (by rw [hnumber]; exact nofun)
        rw [hkind, hnumber, htext]
        cases legacyIndex? s1.tok.text with
        | none => exact .failHere
        | some i =>
          refine h1.advance (.plain (by rw [hnumber]; decide)) hn fun s2 t2 h2 => ?_
          exact along_parseSteps fuel (hfollow rfl) hn h2
      · next hident hnumber =>
        rw [h1.alike.isSymbol (by decide)]
        cases hkind : t1.tok.kind with
        | ident => exact absurd ((h1.alike.kind_iff .ident nofun nofun).1 hkind) hident
        | number => exact absurd ((h1.alike.kind_iff .number nofun nofun).1 hkind) hnumber
        | _ =>
          refine .ite (fun hstar => ?_) fun _ => .failHere
          refine h1.symbol hn hstar (by decide) fun s2 t2 h2 => ?_
          refine (along_parseSplatSteps fuel true hn h2).bind ?_ ?_
          · rintro each s3 each' t3 ⟨heach, h3⟩
            exact along_parseSteps fuel (hsplat heach) hn h3
          · rintro each s3 (hmark | hpending)
            · exact Results.from (tears_parseSteps fuel (Expr.tears_splat (.inr hmark)))
            · exact hpending.parseSteps fuel _
    · have hdeep := T.deeper (b := ("[", "]")) (by decide) hn
      refine h.opening hn (b := ("[", "]")) (by decide) hopen fun s1 t1 h1 => ?_
      refine h1.sees (by decide) (.ite (fun hstar => ?_) fun _ => ?_)
      · refine h1.symbol hdeep hstar (by decide) fun s2 t2 h2 => ?_
        refine h2.closing hn (by decide) fun s3 t3 h3 => ?_
        refine (along_parseSplatSteps fuel false hn h3).bind ?_ ?_
        · rintro each s4 each' t4 ⟨heach, h4⟩
          exact along_parseSteps fuel (hsplat heach) hn h4
        · rintro each s4 (hmark | hpending)
          · exact Results.from (tears_parseSteps fuel (Expr.tears_splat (.inr hmark)))
          · exact hpending.parseSteps fuel _
      · refine (along_parseExpr fuel hdeep h1).bind ?_ fun key s2 hmark => ?_
        · rintro key s2 key' t2 ⟨hkey, h2⟩
          refine h2.closing hn (b := ("[", "]")) (by decide) fun s3 t3 h3 => ?_
          rw [Expr.literal?_congr hkey]
          cases key.literal? with
          | none =>
            refine along_parseSteps fuel ?_ hn h3
            rw [Expr.unplaced, he, hkey, ← Expr.unplaced]
          | some v => exact along_parseSteps fuel (hfollow rfl) hn h3
        · refine Results.from (.after fun _ => .after fun _ => .after fun _ => ?_)
          rw [Expr.literal?_eq_none_of_tears hmark]
          exact tears_parseSteps fuel (by simp [Expr.parts, hmark])
termination_by structural fuel => fuel

theorem along_parseSplatSteps : ∀ (fuel : Nat) (attrsOnly : Bool) {T : Tandem} {K : List String}
    {n m : Nat} {s t : State}, T.Nests K n m → T.At K n m s t →
      Pairs s t (parseSplatSteps fuel attrsOnly) (parseSplatSteps fuel attrsOnly)
        (fun a s' b t' => a.map Step.unplaced = b.map Step.unplaced ∧ T.At K n m s' t')
        fun a s' => StepsTear T.Torn a ∨ Pending T.Torn s'
  | 0, _, _, _, _, _, _, _, _, _ => .failHere
  | fuel + 1, attrsOnly, T, K, n, m, s, t, hn, h => by
    rw [parseSplatSteps]
    refine .current ?_
    rw [h.alike.isSymbol (by decide), h.alike.isSymbol (by decide)]
    refine .ite (fun hdot => ?_) fun _ => .ite (fun hopen => ?_) fun _ => .pure ⟨rfl, h⟩
    · refine h.peekStep hdot (fun a b halike hnext => ?_) fun a b hmiss htorn => ?_
      · by_cases hident : a.kind = .ident
        · rw [if_pos hident, if_pos ((halike.kind_iff .ident nofun nofun).2 hident)]
          refine h.advanceTo (.symbol hdot (by decide)) hn hident hnext fun s1 t1 h1 hname => ?_
          refine .current ?_
          obtain ⟨-, htext⟩ := h1.alike.eq_of_ne (by rw [hname, hident]; exact nofun)
          rw [htext]
          refine h1.advance (.plain (by rw [hname, hident]; decide)) hn fun s2 t2 h2 => ?_
          refine (along_parseSplatSteps fuel attrsOnly hn h2).bind ?_ ?_
          · rintro rest s3 rest' t3 ⟨hrest, h3⟩
            exact .pure ⟨by rw [List.map_cons, List.map_cons, hrest]; rfl, h3⟩
          · rintro rest s3 (hmark | hpending)
            · exact From.pure (.inl (Expr.stepsTear_cons hmark))
            · exact From.pure (.inr hpending)
        · rw [if_neg hident, if_neg (mt (halike.kind_iff .ident nofun nofun).1 hident)]
          exact .pure ⟨rfl, h⟩
      · rw [if_neg hmiss]
        by_cases hident : a.kind = .ident
        · rw [if_pos hident]
          refine .marking ((Results.from ?_).mono fun _ _ => .inl)
          exact .after fun _ => .after fun name => .after fun _ => .after fun rest =>
            .pure ⟨_, _, List.mem_cons_self, htorn hident⟩
        · rw [if_neg hident]
          exact .pure ⟨rfl, h⟩
    · obtain ⟨hopen, -⟩ := Bool.and_eq_true_iff.1 hopen
      have hb : ("[", "]") ∈ brackets := by decide
      have hdeep := T.deeper hb hn
      refine .get (.enter ((h.enter.pairs_advance (.opens hb hopen) hdeep).remember.bind ?_
        fun _ _ hclean => hclean.2.elim))
      rintro ⟨⟩ s1 ⟨⟩ t1 ⟨hadvance, h1⟩
      refine (along_parseExpr fuel hdeep h1).remember.bind ?_ ?_
      · rintro key s2 key' t2 ⟨-, hkey, h2⟩
        refine .leave (.current ?_)
        rw [Expr.literal?_congr hkey]
        cases key.literal? with
        | none => exact .set (.pure ⟨rfl, h⟩)
        | some v =>
          rw [h2.leave.alike.isSymbol (by decide)]
          refine .ite (fun hclose => ?_) fun _ => .set (.pure ⟨rfl, h⟩)
          refine h2.leave.advance (.closes hb hclose) hn fun s3 t3 h3 => ?_
          refine (along_parseSplatSteps fuel attrsOnly hn h3).bind ?_ ?_
          · rintro rest s4 rest' t4 ⟨hrest, h4⟩
            exact .pure ⟨by rw [List.map_cons, List.map_cons, hrest]; rfl, h4⟩
          · rintro rest s4 (hmark | hpending)
            · exact From.pure (.inl (Expr.stepsTear_cons hmark))
            · exact From.pure (.inr hpending)
      · rintro key s2 ⟨hrun, hmark⟩
        refine .leave (.current ?_)
        rw [Expr.literal?_eq_none_of_tears hmark]
        exact .set (.pure (.inr ⟨hopen, s1, fuel, key, s2, hadvance, hrun, hmark⟩))
termination_by structural fuel => fuel

theorem along_parsePrimary : ∀ (fuel : Nat) {T : Tandem} {K : List String} {n m : Nat}
    {s t : State}, T.Nests K n m → T.At K n m s t →
      T.Joint K n m Expr.unplaced Expr.parts s t (parsePrimary fuel) (parsePrimary fuel)
  | 0, _, _, _, _, _, _, _, _ => .failHere
  | fuel + 1, T, K, n, m, s, t, hn, h => by
    rw [parsePrimary]
    refine .current ?_
    cases hkind : s.tok.kind with
    | eof | newline => exact .failHere
    | number =>
      obtain ⟨hsame, htext⟩ := h.alike.eq_of_ne (by rw [hkind]; exact nofun)
      rw [hsame, hkind, htext]
      cases Number.read s.tok.text with
      | error e => exact .failHere
      | ok x => exact h.advance (.plain (by rw [hkind]; decide)) hn fun s1 t1 h1 => .pure ⟨rfl, h1⟩
    | string =>
      obtain ⟨hsame, htext⟩ := h.alike.eq_of_ne (by rw [hkind]; exact nofun)
      rw [hsame, hkind, htext]
      refine (along_parseTemplate fuel s.tok.text.toList).andThen ?_
      rintro parts _ parts' _ ⟨hparts, rfl, rfl⟩
      refine h.advance (.plain (by rw [hkind]; decide)) hn fun s1 t1 h1 => .pure ⟨?_, h1⟩
      rw [Expr.unplaced, hparts, ← Expr.unplaced]
    | ident =>
      obtain ⟨hsame, -⟩ := h.alike.eq_of_ne (by rw [hkind]; exact nofun)
      rw [hsame, hkind]
      exact along_parseNamed fuel hkind hn h
    | symbol =>
      obtain ⟨hsame, htext⟩ := h.alike.eq_of_ne (by rw [hkind]; exact nofun)
      rw [hsame, hkind, htext]
      have hsymbol {symbol : String} (h : s.tok.text = symbol) : s.tok.isSymbol symbol = true :=
        Token.isSymbol_iff.2 ⟨hkind, h⟩
      refine .ite (fun hopen => ?_) fun _ => .ite (fun hopen => ?_) fun _ =>
        .ite (fun hopen => ?_) fun _ => .failHere
      · refine h.opening hn (b := ("(", ")")) (by decide) (hsymbol hopen) fun s1 t1 h1 => ?_
        refine (along_parseExpr fuel (T.deeper (by decide) hn) h1).bind ?_ fun e s2 hmark =>
          Results.from (.after fun _ => .after fun _ => .after fun _ =>
            .pure (by simp [Expr.parts, hmark]))
        rintro e s2 e' t2 ⟨he, h2⟩
        refine h2.closing hn (b := ("(", ")")) (by decide) fun s3 t3 h3 => .pure ⟨?_, h3⟩
        rw [Expr.unplaced, he, ← Expr.unplaced]
      · exact along_parseTuple fuel (hsymbol hopen) hn h
      · exact along_parseObject fuel (hsymbol hopen) hn h
termination_by structural fuel => fuel

theorem along_parseNamed : ∀ (fuel : Nat) {T : Tandem} {K : List String} {n m : Nat}
    {s t : State}, s.tok.kind = .ident → T.Nests K n m → T.At K n m s t →
      T.Joint K n m Expr.unplaced Expr.parts s t (parseNamed fuel s.tok) (parseNamed fuel t.tok)
  | 0, _, _, _, _, _, _, _, _, _ => .failHere
  | fuel + 1, T, K, n, m, s, t, hkind, hn, h => by
    rw [parseNamed, parseNamed]
    obtain ⟨-, htext⟩ := h.alike.eq_of_ne (by rw [hkind]; exact nofun)
    rw [htext]
    refine h.advance (.plain (by rw [hkind]; decide)) hn fun s1 t1 h1 => ?_
    cases wordValue? s.tok.text with
    | some v => exact .pure ⟨rfl, h1⟩
    | none =>
      refine (along_qualified fuel s.tok.text hn h1).andThen ?_
      rintro name s2 _ t2 ⟨rfl, h2⟩
      refine h2.sees (by decide) (.ite (fun hopen => ?_) fun _ =>
        .ite (fun _ => .fail) fun _ => .pure ⟨rfl, h2⟩)
      refine h2.opening hn (b := ("(", ")")) (by decide) hopen fun s3 t3 h3 => ?_
      refine (along_parseArgs fuel (T.deeper (by decide) hn) h3).bind ?_ fun r s4 hmark =>
        Results.from (.after fun _ => .after fun _ => .after fun _ =>
          .pure (by simp [Expr.parts, hmark]))
      rintro ⟨args, expand⟩ s4 ⟨args', _⟩ t4 ⟨hargs, rfl, hclose, h4⟩
      refine h4.closed hn (b := ("(", ")")) (by decide) hclose fun s5 t5 h5 => .pure ⟨?_, h5⟩
      rw [Expr.unplaced, hargs, ← Expr.unplaced]
termination_by structural fuel => fuel

theorem along_parseArgs : ∀ (fuel : Nat) {T : Tandem} {K : List String} {n m : Nat}
    {s t : State}, T.Nests K n m → T.At K n m s t →
      Pairs s t (parseArgs fuel) (parseArgs fuel)
        (fun a s' b t' => unplacedAll a.1 = unplacedAll b.1 ∧ a.2 = b.2 ∧
          s'.tok.isSymbol ")" = true ∧ T.At K n m s' t')
        fun a _ => Tears T.Torn (partsOfAll a.1)
  | 0, _, _, _, _, _, _, _, _ => .failHere
  | fuel + 1, T, K, n, m, s, t, hn, h => by
    rw [parseArgs]
    refine h.sees (by decide) (.ite (fun hclose => .pure ⟨rfl, rfl, hclose, h⟩) fun _ => ?_)
    refine (along_parseExpr fuel hn h).bind ?_ fun arg s1 hmark => ?_
    · rintro arg s1 arg' t1 ⟨harg, h1⟩
      refine .current ?_
      rw [h1.alike.isSymbol (by decide : "..." ≠ "\x7d")]
      refine .ite (fun hdots => ?_) fun _ => ?_
      · refine h1.symbol hn hdots (by decide) fun s2 t2 h2 => h2.sees (by decide) ?_
        refine h2.passing hn (fun hcomma => .symbol hcomma (by decide)) fun _ s3 t3 h3 => ?_
        refine h3.sees (by decide) (.ite (fun hclose => ?_) fun _ => .failHere)
        exact .pure ⟨congrArg (· :: []) harg, rfl, hclose, h3⟩
      · rw [h1.alike.isSymbol (by decide : ")" ≠ "\x7d")]
        refine h1.separated hn id fun _ s2 t2 h2 => ?_
        refine (along_parseArgs fuel hn h2).bind ?_ fun r s3 hmark =>
          From.pure (by simp [partsOfAll, hmark])
        rintro ⟨args, expand⟩ s3 ⟨args', _⟩ t3 ⟨hargs, rfl, hclose, h3⟩
        exact .pure ⟨by rw [unplacedAll, harg, hargs, ← unplacedAll], rfl, hclose, h3⟩
    · have hhead {args : List Expr} : Tears T.Torn (partsOfAll (arg :: args)) := by
        simp [partsOfAll, hmark]
      have hargs : Results (fun r : List Expr × Bool => Tears T.Torn (partsOfAll r.1))
          (parseArgs fuel >>= fun r => pure (arg :: r.1, r.2)) :=
        .after fun r => .pure hhead
      refine Results.from ?_
      refine .after fun tok => .ite ?_ (.ite (.after fun _ => hargs) (.guarded hargs))
      refine .after fun _ => .after fun comma => .passing fun _ => .after fun close => ?_
      exact .ite (.pure hhead) .failHere
termination_by structural fuel => fuel

theorem along_parseTuple : ∀ (fuel : Nat) {start start' : Span} {T : Tandem} {K : List String}
    {n m : Nat} {s t : State}, s.tok.isSymbol "[" = true → T.Nests K n m → T.At K n m s t →
      T.Joint K n m Expr.unplaced Expr.parts s t (parseTuple fuel start) (parseTuple fuel start')
  | 0, _, _, _, _, _, _, _, _, _, _, _ => .failHere
  | fuel + 1, start, start', T, K, n, m, s, t, hopen, hn, h => by
    rw [parseTuple, parseTuple]
    refine h.opening hn (b := ("[", "]")) (by decide) hopen fun s1 t1 h1 => ?_
    refine h1.seesWord (.ite (fun hfor => ?_) fun _ => ?_)
    · exact along_parseFor fuel false (b := ("[", "]")) (by decide) rfl hfor hn h1
    · refine (along_parseItems fuel (T.deeper (by decide) hn) h1).bind ?_ fun items s2 hmark =>
        Results.from (.after fun _ => .after fun _ => .after fun _ =>
          .pure (by simp [Expr.parts, hmark]))
      rintro items s2 items' t2 ⟨hitems, hclose, h2⟩
      refine h2.closed hn (b := ("[", "]")) (by decide) hclose fun s3 t3 h3 => .pure ⟨?_, h3⟩
      rw [Expr.unplaced, hitems, ← Expr.unplaced]
termination_by structural fuel => fuel

theorem along_parseItems : ∀ (fuel : Nat) {T : Tandem} {K : List String} {n m : Nat}
    {s t : State}, T.Nests K n m → T.At K n m s t →
      Pairs s t (parseItems fuel) (parseItems fuel)
        (fun a s' b t' => unplacedAll a = unplacedAll b ∧ s'.tok.isSymbol "]" = true ∧
          T.At K n m s' t')
        fun a _ => Tears T.Torn (partsOfAll a)
  | 0, _, _, _, _, _, _, _, _ => .failHere
  | fuel + 1, T, K, n, m, s, t, hn, h => by
    rw [parseItems]
    refine h.sees (by decide) (.ite (fun hclose => .pure ⟨rfl, hclose, h⟩) fun _ => ?_)
    refine (along_parseExpr fuel hn h).bind ?_ fun item s1 hmark => ?_
    · rintro item s1 item' t1 ⟨hitem, h1⟩
      refine .current ?_
      rw [h1.alike.isSymbol (by decide : "]" ≠ "\x7d")]
      refine h1.separated hn id fun _ s2 t2 h2 => ?_
      refine (along_parseItems fuel hn h2).bind ?_ fun items s3 hmark =>
        From.pure (by simp [partsOfAll, hmark])
      rintro items s3 items' t3 ⟨hitems, hclose, h3⟩
      exact .pure ⟨by rw [unplacedAll, hitem, hitems, ← unplacedAll], hclose, h3⟩
    · have hitems : Results (fun items => Tears T.Torn (partsOfAll items))
          (parseItems fuel >>= fun items => pure (item :: items)) :=
        .after fun items => .pure (by simp [partsOfAll, hmark])
      exact Results.from (.after fun tok => .ite (.after fun _ => hitems) (.guarded hitems))
termination_by structural fuel => fuel

theorem along_parseObject : ∀ (fuel : Nat) {start start' : Span} {T : Tandem} {K : List String}
    {n m : Nat} {s t : State}, s.tok.isSymbol "\x7b" = true → T.Nests K n m → T.At K n m s t →
      T.Joint K n m Expr.unplaced Expr.parts s t (parseObject fuel start)
        (parseObject fuel start')
  | 0, _, _, _, _, _, _, _, _, _, _, _ => .failHere
  | fuel + 1, start, start', T, K, n, m, s, t, hopen, hn, h => by
    rw [parseObject, parseObject]
    have hb : ("\x7b", "\x7d") ∈ brackets := by decide
    have hlined : Lined ("\x7b" :: K) := by
      change some "\x7b" ∉ [some "(", some "["]
      decide
    refine .get (.modify ((h.nested 0 0).advance (.opens hb hopen) T.lined fun s1 t1 h1 => ?_))
    refine h1.skipNewlines hlined fun s2 t2 h2 => h2.seesWord ?_
    refine .choosing .rfl (fun a s' a' t' => a = a' ∧ (a = true → s'.tok.isWord "for" = true) ∧
      T.At ("\x7b" :: K) 0 0 s' t') ?_ (fun _ => ⟨rfl, nofun, h2⟩) fun hfor hrest =>
        h2.peek hlined (Token.kind_of_isWord hfor) fun a b halike =>
          hrest _ s2 _ t2 ⟨halike.kind_beq .ident nofun nofun, fun _ => hfor, h2⟩
    rintro comprehension s3 _ t3 ⟨rfl, hfor, h3⟩
    refine .ite (fun hcomprehension => .modify ?_) fun _ => ?_
    · rw [h.left, h.right]
      exact along_parseFor fuel true hb rfl (hfor hcomprehension) hn (h3.nested _ _)
    · refine (along_parseEntries fuel T.lined hlined h3).bind ?_ fun items s4 hmark =>
        Results.from (.after fun _ => .after fun _ => .after fun _ =>
          .pure (by simp [Expr.parts, hmark]))
      rintro items s4 items' t4 ⟨hitems, hclose, h4⟩
      refine .modify (.current ?_)
      rw [h.left, h.right]
      refine (h4.nested n m).advance (.closes hb hclose) hn fun s5 t5 h5 => .pure ⟨?_, h5⟩
      rw [Expr.unplaced, hitems, ← Expr.unplaced]
termination_by structural fuel => fuel

theorem along_parseEntries : ∀ (fuel : Nat) {T : Tandem} {K : List String} {n m : Nat}
    {s t : State}, T.Nests K n m → Lined K → T.At K n m s t →
      Pairs s t (parseEntries fuel) (parseEntries fuel)
        (fun a s' b t' => unplacedItems a = unplacedItems b ∧ s'.tok.isSymbol "\x7d" = true ∧
          T.At K n m s' t')
        fun a _ => Tears T.Torn (partsOfItems a)
  | 0, _, _, _, _, _, _, _, _, _ => .failHere
  | fuel + 1, T, K, n, m, s, t, hn, hlined, h => by
    rw [parseEntries]
    refine h.skipNewlines hlined fun s1 t1 h1 => ?_
    -- Only where its text ends the first parser may see no brace where the second one sees one.
    by_cases heof : s1.tok.kind = .eof
    · refine .failing (.sees ?_)
      rw [Token.isSymbol_of_kind (heof.trans_ne nofun), if_neg (by decide)]
      exact (parseKey_of_eof heof fuel).bind fun _ _ => False.elim
    obtain ⟨hkind, htext⟩ := h1.alike.eq_of_ne heof
    change Pairs s1 t1 (if s1.tok.isSymbol "\x7d" = true then _ else _)
      (if t1.tok.isSymbol "\x7d" = true then _ else _) _ _
    rw [Token.isSymbol, Token.isSymbol, hkind, htext, ← Token.isSymbol]
    refine .ite (fun hclose => .pure ⟨rfl, hclose, h1⟩) fun _ => ?_
    refine (along_parseKey fuel hn hlined h1).bind ?_ fun key s2 hmark => ?_
    · rintro key s2 key' t2 ⟨hkey, h2⟩
      refine .current ?_
      rw [h2.alike.isSymbol (by decide : "=" ≠ "\x7d"),
        h2.alike.isSymbol (by decide : ":" ≠ "\x7d")]
      refine .ite (fun hsymbol => ?_) fun _ => .failHere
      have hturns : Turns K s2.tok K := by
        rcases Bool.or_eq_true_iff.1 hsymbol with hequals | hcolon
        · exact .symbol hequals (by decide)
        · exact .symbol hcolon (by decide)
      refine h2.advance hturns hn fun s3 t3 h3 => ?_
      refine (along_parseExpr fuel hn h3).bind ?_ fun value s4 hmark => ?_
      · rintro value s4 value' t4 ⟨hvalue, h4⟩
        refine .current (h4.separated hn h4.alike.ends fun _ s5 t5 h5 => ?_)
        refine (along_parseEntries fuel hn hlined h5).bind ?_ fun items s6 hmark =>
          From.pure (by simp [Expr.partsOfItems_cons, hmark])
        rintro items s6 items' t6 ⟨hitems, hclose, h6⟩
        refine .pure ⟨?_, hclose, h6⟩
        rw [Expr.unplacedItems_cons, Expr.unplacedItems_cons, hkey, hvalue, hitems]
      · have hitems : Results (fun items => Tears T.Torn (partsOfItems items))
            (parseEntries fuel >>= fun items => pure ((key, value) :: items)) :=
          .after fun items => .pure (by simp [Expr.partsOfItems_cons, hmark])
        exact Results.from (.after fun tok => .ite (.after fun _ => hitems) (.guarded hitems))
    · have hitems (value : Expr) : Results (fun items => Tears T.Torn (partsOfItems items))
          (parseEntries fuel >>= fun items => pure ((key, value) :: items)) :=
        .after fun items => .pure (by simp [Expr.partsOfItems_cons, hmark])
      refine Results.from (.after fun tok => .ite ?_ .failHere)
      exact .after fun _ => .after fun value => .after fun tok =>
        .ite (.after fun _ => hitems value) (.guarded (hitems value))
termination_by structural fuel => fuel

theorem along_parseKey : ∀ (fuel : Nat) {T : Tandem} {K : List String} {n m : Nat}
    {s t : State}, T.Nests K n m → Lined K → T.At K n m s t →
      T.Joint K n m ObjectKey.unplaced ObjectKey.parts s t (parseKey fuel) (parseKey fuel)
  | 0, _, _, _, _, _, _, _, _, _ => .failHere
  | fuel + 1, T, K, n, m, s, t, hn, hlined, h => by
    rw [parseKey]
    refine .current ?_
    refine .choosing (h.alike.kind_iff .ident nofun nofun)
      (fun a s' a' t' => a = a' ∧ (a = true → s.tok.kind = .ident) ∧ s' = s ∧ t' = t) ?_
      (fun _ => ⟨rfl, nofun, rfl, rfl⟩) fun hident hrest =>
        h.peek hlined hident fun a b halike => hrest _ s _ t ⟨?_, fun _ => hident, rfl, rfl⟩
    · rintro bare _ _ _ ⟨rfl, hbare, rfl, rfl⟩
      refine .ite (fun hname => ?_) fun _ => ?_
      · have hident := hbare hname
        obtain ⟨-, htext⟩ := h.alike.eq_of_ne (by rw [hident]; exact nofun)
        rw [htext]
        exact h.advance (.plain (by rw [hident]; decide)) hn fun s1 t1 h1 => .pure ⟨rfl, h1⟩
      · refine (along_parseExpr fuel hn h).bind ?_ fun e s1 hmark => From.pure hmark
        rintro e s1 e' t1 ⟨he, h1⟩
        exact .pure ⟨congrArg ObjectKey.expr he, h1⟩
    · rw [halike.isSymbol (by decide), halike.isSymbol (by decide)]
termination_by structural fuel => fuel

theorem along_parseFor : ∀ (fuel : Nat) (object : Bool) {start start' : Span}
    {b : String × String} {T : Tandem} {K : List String} {n m : Nat} {s t : State},
    b ∈ brackets → (if object then "\x7d" else "]") = b.2 → s.tok.isWord "for" = true →
      T.Nests K n m → T.At (b.1 :: K) (n + 1) (m + 1) s t →
        T.Joint K n m Expr.unplaced Expr.parts s t (parseFor fuel start object)
          (parseFor fuel start' object)
  | 0, _, _, _, _, _, _, _, _, _, _, _, _, _, _, _ => .failHere
  | fuel + 1, object, start, start', b, T, K, n, m, s, t, hb, hclose, hfor, hn, h => by
    rw [parseFor, parseFor, hclose]
    have hdeep := T.deeper hb hn
    -- Behind the value nothing takes away a mark in what was found before.
    have hlast {first : String} {second : Option String} {collection value : Expr}
        {key : Option Expr} (hmark : Tears T.Torn collection.parts ∨
          Tears T.Torn (Expr.partsOfOption key) ∨ Tears T.Torn value.parts) :
        Results (fun e : Expr => Tears T.Torn e.parts) (do
          let group ← do
            if object then sees "..." else pure false
          if group then advance
          let cond ← do
            if ← seesWord "if" then
              advance
              let cond ← parseExpr fuel
              pure (some cond)
            else pure none
          leave
          let close ← current
          expect b.2 .forClosing
          pure (.forEach (start.through close.span) (second.map fun _ => first)
            (second.getD first) collection key value cond group)) := by
      refine .choosing (fun group => .passing fun _ => .after fun _ => ?_) fun hrest => .after hrest
      refine .choosing (fun cond => ?_) fun hrest => .after fun _ => .after fun _ => .after hrest
      refine .after fun _ => .after fun _ => .after fun _ => .pure ?_
      simp only [Expr.parts, Expr.tears_cons, Expr.tears_append]
      tauto
    refine h.advance (.word hfor) hdeep fun s1 t1 h1 => ?_
    refine h1.expectName hdeep fun first s2 t2 h2 => h2.sees (by decide) ?_
    refine .choosing .rfl (fun a s' a' t' => a = a' ∧ T.At (b.1 :: K) (n + 1) (m + 1) s' t') ?_
      (fun _ => ⟨rfl, h2⟩) fun hcomma hrest =>
        h2.symbol hdeep hcomma (by decide) fun s3 t3 h3 =>
          h3.expectName hdeep fun name s4 t4 h4 => hrest _ s4 _ t4 ⟨rfl, h4⟩
    rintro second s3 _ t3 ⟨rfl, h3⟩
    refine h3.seesWord (.guarded id fun hin => ?_)
    refine h3.advance (.word (by simpa using hin)) hdeep fun s4 t4 h4 => ?_
    refine (along_parseExpr fuel hdeep h4).bind ?_ fun collection s5 hmark => ?_
    · rintro collection s5 collection' t5 ⟨hcollection, h5⟩
      refine h5.expect (fun hcolon => .symbol hcolon (by decide)) hdeep fun s6 t6 _ h6 => ?_
      refine .choosing .rfl (fun a s' a' t' => Expr.unplacedOption a = Expr.unplacedOption a' ∧
        T.At (b.1 :: K) (n + 1) (m + 1) s' t') ?_ (fun _ => ⟨rfl, h6⟩) fun _ hrest => ?_
      · rintro key s7 key' t7 ⟨hkey, h7⟩
        refine (along_parseExpr fuel hdeep h7).bind ?_ fun value s8 hmark => ?_
        · rintro value s8 value' t8 ⟨hvalue, h8⟩
          refine .choosing .rfl (fun a s' a' t' => a = a' ∧
            (a = true → s'.tok.isSymbol "..." = true) ∧ T.At (b.1 :: K) (n + 1) (m + 1) s' t') ?_
            (fun _ => ⟨rfl, nofun, h8⟩) fun _ hrest =>
              h8.sees (by decide) (hrest _ s8 _ t8 ⟨rfl, id, h8⟩)
          rintro group s9 _ t9 ⟨rfl, hdots, h9⟩
          refine h9.passing hdeep (fun hgroup => .symbol (hdots hgroup) (by decide))
            fun _ s10 t10 h10 => h10.seesWord ?_
          refine .choosing .rfl (fun a s' a' t' => Expr.unplacedOption a = Expr.unplacedOption a' ∧
            T.At (b.1 :: K) (n + 1) (m + 1) s' t') ?_ (fun _ => ⟨rfl, h10⟩) fun hif hrest => ?_
          · rintro cond s11 cond' t11 ⟨hcond, h11⟩
            refine h11.closing hn hb fun s12 t12 h12 => .pure ⟨?_, h12⟩
            rw [Expr.unplaced, hcollection, hkey, hvalue, hcond, ← Expr.unplaced]
          · refine h10.advance (.word hif) hdeep fun s11 t11 h11 => ?_
            refine (along_parseExpr fuel hdeep h11).bind ?_ fun cond s12 hmark => ?_
            · rintro cond s12 cond' t12 ⟨hcond, h12⟩
              exact hrest _ s12 _ t12 ⟨congrArg some hcond, h12⟩
            · rw [pure_bind]
              exact Results.from (.after fun _ => .after fun _ => .after fun _ =>
                .pure (by simp [Expr.parts, Expr.partsOfOption, hmark]))
        · exact Results.from (hlast (.inr (.inr hmark)))
      · refine (along_parseExpr fuel hdeep h6).bind ?_ fun key s7 hmark => ?_
        · rintro key s7 key' t7 ⟨hkey, h7⟩
          refine h7.expect (fun harrow => .symbol harrow (by decide)) hdeep fun s8 t8 _ h8 => ?_
          exact hrest _ s8 _ t8 ⟨congrArg some hkey, h8⟩
        · refine Results.from (.after fun _ => ?_)
          rw [pure_bind]
          exact .after fun value => hlast (.inr (.inl hmark))
    · refine Results.from ?_
      refine .after fun _ => .choosing (fun key => .after fun value => hlast (.inl hmark))
        fun hrest => .after fun key => .after fun _ => .after hrest
termination_by structural fuel => fuel

theorem along_parseTemplate : ∀ (fuel : Nat) (cs : List Char) {span span' : Span}
    {offset offset' : Nat} {s t : State},
    Pairs s t (parseTemplate fuel span cs offset) (parseTemplate fuel span' cs offset')
      (fun a s' b t' => unplacedTemplate a = unplacedTemplate b ∧ s' = s ∧ t' = t) Clean
  | 0, _, _, _, _, _, _, _ => .failHere
  | fuel + 1, cs, span, span', offset, offset', s, t => by
    rw [parseTemplate, parseTemplate]
    refine .lift fun chunk hchunk => ?_
    obtain ⟨chunk', hchunk', htext, hrest⟩ := readChunk_place span' hchunk offset'
    refine ⟨chunk', hchunk', ?_⟩
    rw [htext]
    extract_lets head
    cases hchunkRest : chunk.rest with
    | none =>
      rw [hchunkRest, Option.map_none, Option.map_eq_none_iff] at hrest
      rw [hrest]
      exact .pure ⟨rfl, rfl, rfl⟩
    | some behind =>
      rw [hchunkRest, Option.map_some, Option.map_eq_some_iff] at hrest
      obtain ⟨behind', hbehind', hsame⟩ := hrest
      rw [hbehind']
      refine .get (.lift fun inner hinner => ?_)
      let place := span.source.position behind.2
      let place' := span'.source.position behind'.2
      have hbehind : (⟨behind.1, behind.2, place.1, place.2⟩ : Cursor).rest =
          (⟨behind'.1, behind'.2, place'.1, place'.2⟩ : Cursor).rest := hsame.symm
      obtain ⟨inner', hinner', h⟩ := twins_start span.source span'.source hbehind hinner
      refine ⟨inner', hinner', .set ?_⟩
      refine (along_parseExpr fuel rfl h).bind ?_ fun e s1 hmark => (not_tears_twins _ hmark).elim
      rintro e s1 e' t1 ⟨he, h1⟩
      have hmissing : ¬(!s1.tok.isSymbol "\x7d") = true → ¬(!t1.tok.isSymbol "\x7d") = true := by
        rw [Bool.not_eq_true', Bool.not_eq_false, Bool.not_eq_true', Bool.not_eq_false]
        exact h1.alike.isSymbol_of_isSymbol
      change Pairs s1 t1 (if (!s1.tok.isSymbol "\x7d") = true then _ else _)
        (if (!t1.tok.isSymbol "\x7d") = true then _ else _) _ _
      refine .guarded hmissing fun _ => .get (.set ?_)
      obtain ⟨-, -, hrest⟩ := h1.goes
      change s1.cursor.rest = t1.cursor.rest at hrest
      rw [← hrest]
      refine (along_parseTemplate fuel s1.cursor.rest).andThen ?_
      rintro tail _ tail' _ ⟨htail, rfl, rfl⟩
      refine .pure ⟨?_, rfl, rfl⟩
      rw [Expr.unplacedTemplate_append, Expr.unplacedTemplate_append, unplacedTemplate, he, htail,
        ← unplacedTemplate]
termination_by structural fuel => fuel

end

end StaticConfig.Parser
