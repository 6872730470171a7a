import StaticConfig.Proofs.Evaluation.Unplaced
import StaticConfig.Proofs.Reading.Placed

/-!
Two parsers that go along with each other. They come to the same tree up to ranges while their
states belong together, token by token, and the rules here follow the parts that parsers are put
together from. There is one way in which they may part: at the dot of a splat the first parser may
see a name that the second one does not see there. Then the range of that step is a mark in what
the first one finds.
-/
namespace StaticConfig

namespace Token

/-- The tokens read the same, or where the first text ends there is a closing brace in the second
one. -/
def Alike (a b : Token) : Prop :=
  a.kind = b.kind ∧ a.text = b.text ∨ a.kind = .eof ∧ b.isSymbol "\x7d" = true

theorem isSymbol_of_kind {t : Token} {symbol : String} (h : t.kind ≠ .symbol) :
    t.isSymbol symbol = false := by
  rw [isSymbol, beq_eq_false_iff_ne.2 h, Bool.false_and]

theorem kind_of_isWord {t : Token} {word : String} (h : t.isWord word = true) :
    t.kind = .ident := by
  rw [isWord, Bool.and_eq_true, beq_iff_eq] at h
  exact h.1

namespace Alike

variable {a b : Token}

theorem eq_of_ne (h : a.Alike b) (ha : a.kind ≠ .eof) : b.kind = a.kind ∧ b.text = a.text := by
  obtain ⟨hkind, htext⟩ | ⟨heof, -⟩ := h
  · exact ⟨hkind.symm, htext.symm⟩
  · exact absurd heof ha

theorem isSymbol (h : a.Alike b) {symbol : String} (hne : symbol ≠ "\x7d") :
    b.isSymbol symbol = a.isSymbol symbol := by
  obtain ⟨hkind, htext⟩ | ⟨heof, hbrace⟩ := h
  · rw [Token.isSymbol, Token.isSymbol, hkind, htext]
  · rw [isSymbol_iff] at hbrace
    rw [Token.isSymbol, Token.isSymbol, heof, hbrace.1, hbrace.2, beq_eq_false_iff_ne.2 hne.symm]
    rfl

theorem isSymbol_of_isSymbol (h : a.Alike b) {symbol : String} (ha : a.isSymbol symbol = true) :
    b.isSymbol symbol = true := by
  rw [isSymbol_iff] at ha ⊢
  obtain ⟨hkind, htext⟩ := h.eq_of_ne (by rw [ha.1]; decide)
  exact ⟨hkind.trans ha.1, htext.trans ha.2⟩

theorem isWord (h : a.Alike b) (word : String) : b.isWord word = a.isWord word := by
  obtain ⟨hkind, htext⟩ | ⟨heof, hbrace⟩ := h
  · rw [Token.isWord, Token.isWord, hkind, htext]
  · rw [isSymbol_iff] at hbrace
    rw [Token.isWord, Token.isWord, heof, hbrace.1]
    rfl

/-- Both are of a kind, unless it is the end or a symbol. -/
theorem kind_iff (h : a.Alike b) (kind : TokenKind) (heof : kind ≠ .eof)
    (hsymbol : kind ≠ .symbol) : b.kind = kind ↔ a.kind = kind := by
  obtain ⟨hkind, -⟩ | ⟨hend, hbrace⟩ := h
  · rw [hkind]
  · rw [isSymbol_iff] at hbrace
    rw [hend, hbrace.1]
    exact ⟨fun h => absurd h.symm hsymbol, fun h => absurd h.symm heof⟩

/-- An item of an object that ends at the first token does so at the second one. -/
theorem ends (h : a.Alike b) (ha : ¬(a.kind != .newline && !a.isSymbol "\x7d") = true) :
    ¬(b.kind != .newline && !b.isSymbol "\x7d") = true := by
  obtain ⟨hkind, htext⟩ | ⟨-, hbrace⟩ := h
  · rwa [Token.isSymbol, ← hkind, ← htext, ← Token.isSymbol]
  · rw [hbrace, Bool.not_true, Bool.and_false]
    exact Bool.false_ne_true

theorem kind_beq (h : a.Alike b) (kind : TokenKind) (heof : kind ≠ .eof)
    (hsymbol : kind ≠ .symbol) : (a.kind == kind) = (b.kind == kind) := by
  rw [Bool.eq_iff_iff, beq_iff_eq, beq_iff_eq]
  exact (h.kind_iff kind heof hsymbol).symm

end Alike

end Token

namespace Parser

/-- The brackets. -/
def brackets : List (String × String) := [("(", ")"), ("[", "]"), ("\x7b", "\x7d")]

/-- With these brackets open before the token, those are open behind it. The innermost is the first.
A closing bracket closes one of its kind. -/
inductive Turns : List String → Token → List String → Prop
  | plain {K : List String} {t : Token} : t.kind ∈ [.ident, .number, .string] → Turns K t K
  | symbol {K : List String} {t : Token} {s : String} : t.isSymbol s = true →
    (∀ b ∈ brackets, s ≠ b.1 ∧ s ≠ b.2) → Turns K t K
  | opens {K : List String} {t : Token} {b : String × String} : b ∈ brackets →
    t.isSymbol b.1 = true → Turns K t (b.1 :: K)
  | closes {K : List String} {t : Token} {b : String × String} : b ∈ brackets →
    t.isSymbol b.2 = true → Turns (b.1 :: K) t K

theorem Turns.word {K : List String} {t : Token} {word : String} (h : t.isWord word = true) :
    Turns K t K :=
  .plain (by rw [Token.kind_of_isWord h]; decide)

/-- Ends of lines count here: neither a parenthesis nor a square bracket is the innermost one. -/
def Lined (K : List String) : Prop := K.head? ∉ [some "(", some "["]

/-- How the states of two parsers belong together while certain brackets are open, and what the
nestings that they count may be there. Each step of the first parser is one of the second, except
that the second one may miss a name behind a dot. Then the range of both is torn. -/
structure Tandem where
  Goes : List String → State → State → Prop
  Nests : List String → Nat → Nat → Prop
  Torn : Span → Prop
  alike {K : List String} {s t : State} : Goes K s t → s.tok.Alike t.tok
  nested {K : List String} {s t : State} (n m : Nat) : Goes K s t →
    Goes K { s with nesting := n } { t with nesting := m }
  deeper {K : List String} {b : String × String} {n m : Nat} : b ∈ brackets → Nests K n m →
    Nests (b.1 :: K) (n + 1) (m + 1)
  lined {K : List String} : Nests ("\x7b" :: K) 0 0
  fetched {K K' : List String} {s t : State} {tok : Token} {cursor : Cursor} : Goes K s t →
    Turns K s.tok K' → Nests K' s.nesting t.nesting →
      fetch s.source (decide (0 < s.nesting)) s.cursor = .ok (tok, cursor) →
        ∃ tok' cursor', fetch t.source (decide (0 < t.nesting)) t.cursor = .ok (tok', cursor') ∧
          Goes K' { s with tok := tok, cursor := cursor } { t with tok := tok', cursor := cursor' }
  skipped {K : List String} {s t : State} {tok : Token} {cursor : Cursor} : Goes K s t → Lined K →
    s.tok.kind = .newline →
      significant s.source (s.cursor.rest.length + 1) (s.tok, s.cursor) = .ok (tok, cursor) →
        ∃ tok' cursor',
          significant t.source (t.cursor.rest.length + 1) (t.tok, t.cursor) = .ok (tok', cursor') ∧
            Goes K { s with tok := tok, cursor := cursor }
              { t with tok := tok', cursor := cursor' }
  peeked {K : List String} {s t : State} {tok : Token} {cursor : Cursor} : Goes K s t → Lined K →
    s.tok.kind = .ident → Lexer.next s.source s.cursor = .ok (tok, cursor) →
      ∃ tok' cursor', Lexer.next t.source t.cursor = .ok (tok', cursor') ∧ tok.Alike tok'
  torn {K : List String} {s t : State} {tok : Token} {cursor : Cursor} : Goes K s t →
    s.tok.isSymbol "." = true → Lexer.next s.source s.cursor = .ok (tok, cursor) →
      ∃ tok' cursor', Lexer.next t.source t.cursor = .ok (tok', cursor') ∧
        (tok.Alike tok' ∨
          tok'.kind ≠ .ident ∧ (tok.kind = .ident → Torn (s.tok.span.through tok.span)))

theorem run_bind_eq_ok {α β : Type} {p : Parse α} {f : α → Parse β} {s : State} {r : β × State} :
    (p >>= f).run s = .ok r ↔ ∃ a s', p.run s = .ok (a, s') ∧ (f a).run s' = .ok r := by
  rw [StateT.run_bind, Except.bind_eq_ok, Prod.exists]

theorem run_liftM_of_eq_ok {α : Type} {r : Except SyntaxError α} {a : α} (h : r = .ok a)
    (s : State) : (liftM r : Parse α).run s = .ok (a, s) := by
  rw [h]
  rfl

/-- Where the first parser succeeds from its state, the second one does so from its own, with
related results and states, unless there is a mark in what the first one finds. -/
def Pairs {α : Type} (s t : State) (p q : Parse α) (Q : α → State → α → State → Prop)
    (Bad : α → State → Prop) : Prop :=
  ∀ a s', p.run s = .ok (a, s') → (∃ b t', q.run t = .ok (b, t') ∧ Q a s' b t') ∨ Bad a s'

/-- There is no mark. -/
def Clean {α : Type} (_ : α) (_ : State) : Prop := False

namespace Pairs

variable {α β : Type} {s t : State} {p q : Parse α} {f g : α → Parse β}
  {Q : α → State → α → State → Prop} {R : β → State → β → State → Prop}
  {Bad : α → State → Prop} {Bad' : β → State → Prop}

theorem bind (hp : Pairs s t p q Q Bad)
    (hf : ∀ a s' b t', Q a s' b t' → Pairs s' t' (f a) (g b) R Bad')
    (hbad : ∀ a s', Bad a s' → From s' (f a) Bad') : Pairs s t (p >>= f) (q >>= g) R Bad' := by
  intro c s'' h
  obtain ⟨a, s', ha, hc⟩ := run_bind_eq_ok.1 h
  obtain ⟨b, t', hb, hQ⟩ | hmark := hp a s' ha
  · obtain ⟨d, t'', hd, hR⟩ | hmark := hf a s' b t' hQ c s'' hc
    · exact .inl ⟨d, t'', run_bind_eq_ok.2 ⟨b, t', hb, hd⟩, hR⟩
    · exact .inr hmark
  · exact .inr (hbad a s' hmark _ hc)

/-- What comes first leaves no mark. -/
theorem andThen (hp : Pairs s t p q Q Clean)
    (hf : ∀ a s' b t', Q a s' b t' → Pairs s' t' (f a) (g b) R Bad') :
    Pairs s t (p >>= f) (q >>= g) R Bad' :=
  hp.bind hf fun _ _ => False.elim

theorem mono (hp : Pairs s t p q Q Bad) {Q' : α → State → α → State → Prop}
    {Bad' : α → State → Prop} (hQ : ∀ a s' b t', Q a s' b t' → Q' a s' b t')
    (hBad : ∀ a s', Bad a s' → Bad' a s') : Pairs s t p q Q' Bad' := by
  intro a s' h
  obtain ⟨b, t', hb, hab⟩ | hmark := hp a s' h
  · exact .inl ⟨b, t', hb, hQ a s' b t' hab⟩
  · exact .inr (hBad a s' hmark)

/-- What the first parser did is remembered. -/
theorem remember (hp : Pairs s t p q Q Bad) :
    Pairs s t p q (fun a s' b t' => p.run s = .ok (a, s') ∧ Q a s' b t')
      fun a s' => p.run s = .ok (a, s') ∧ Bad a s' := by
  intro a s' h
  obtain ⟨b, t', hb, hQ⟩ | hmark := hp a s' h
  · exact .inl ⟨b, t', hb, h, hQ⟩
  · exact .inr ⟨h, hmark⟩

theorem lift {r r' : Except SyntaxError α}
    (h : ∀ a, r = .ok a → ∃ b, r' = .ok b ∧ Pairs s t (f a) (g b) R Bad') :
    Pairs s t (liftM r >>= f) (liftM r' >>= g) R Bad' := by
  cases r with
  | error e => rintro _ _ ⟨⟩
  | ok a =>
    obtain ⟨b, rfl, hpairs⟩ := h a rfl
    exact hpairs

theorem pure {a b : α} (h : Q a s b t) : Pairs s t (pure a) (pure b) Q Bad := by
  rintro _ _ ⟨⟩
  exact .inl ⟨b, t, rfl, h⟩

theorem failHere {fault : SyntaxFault} : Pairs s t (failHere fault) q Q Bad := by
  rintro _ _ ⟨⟩

theorem fail {span : Span} {fault : SyntaxFault} : Pairs s t (fail span fault) q Q Bad := by
  rintro _ _ ⟨⟩

/-- What the first parser fails with does not matter. -/
theorem failing (h : From s p fun _ _ => False) : Pairs s t p q Q Bad :=
  fun a s' hrun => (h (a, s') hrun).elim

theorem ite {c : Prop} [Decidable c] {p' q' : Parse α} (hp : c → Pairs s t p q Q Bad)
    (hq : ¬c → Pairs s t p' q' Q Bad) :
    Pairs s t (if c then p else p') (if c then q else q') Q Bad := by
  split
  · next hc => exact hp hc
  · next hc => exact hq hc

/-- There is a mark in all that the first parser finds. -/
theorem marking (h : From s p Bad) : Pairs s t p q Q Bad :=
  fun a s' hrun => .inr (h (a, s') hrun)

/-- Both go on unless something is missing. -/
theorem guarded {missing missing' : Prop} [Decidable missing] [Decidable missing']
    {fault : SyntaxFault} {f g : Unit → Parse α} (hmissing : ¬missing → ¬missing')
    (h : ¬missing → Pairs s t (f ()) (g ()) Q Bad) :
    Pairs s t (if missing then Parser.failHere fault >>= f else f ())
      (if missing' then Parser.failHere fault >>= g else g ()) Q Bad := by
  by_cases hmiss : missing
  · rw [if_pos hmiss]
    rintro _ _ ⟨⟩
  · rw [if_neg hmiss, if_neg (hmissing hmiss)]
    exact h hmiss

/-- Both go on with a result that is found in one way or another, or with a fixed one. -/
theorem choosing {c c' : Prop} [Decidable c] [Decidable c'] {p q : Parse β} {fixed fixed' : α}
    (hc : c' ↔ c) (P : α → State → α → State → Prop)
    (h : ∀ a s' b t', P a s' b t' → Pairs s' t' (f a) (g b) R Bad')
    (hfixed : ¬c → P fixed s fixed' t)
    (hp : c → (∀ a s' b t', P a s' b t' → Pairs s' t' (f a) (g b) R Bad') → Pairs s t p q R Bad') :
    Pairs s t (if c then p else Pure.pure fixed >>= f) (if c' then q else Pure.pure fixed' >>= g) R
      Bad' := by
  by_cases hholds : c
  · rw [if_pos hholds, if_pos (hc.2 hholds)]
    exact hp hholds h
  · rw [if_neg hholds, if_neg (mt hc.1 hholds)]
    exact h _ _ _ _ (hfixed hholds)

/-! Both look at their states or change them. -/

theorem get {f g : State → Parse α} (h : Pairs s t (f s) (g t) Q Bad) :
    Pairs s t (get >>= f) (get >>= g) Q Bad := h

theorem set {s' t' : State} {f g : PUnit → Parse α} (h : Pairs s' t' (f ⟨⟩) (g ⟨⟩) Q Bad) :
    Pairs s t (set s' >>= f) (set t' >>= g) Q Bad := h

theorem current {f g : Token → Parse α} (h : Pairs s t (f s.tok) (g t.tok) Q Bad) :
    Pairs s t (current >>= f) (current >>= g) Q Bad := h

theorem enter {f g : PUnit → Parse α} (h : Pairs { s with nesting := s.nesting + 1 }
    { t with nesting := t.nesting + 1 } (f ⟨⟩) (g ⟨⟩) Q Bad) :
    Pairs s t (enter >>= f) (enter >>= g) Q Bad := h

theorem leave {f g : PUnit → Parse α} (h : Pairs { s with nesting := s.nesting - 1 }
    { t with nesting := t.nesting - 1 } (f ⟨⟩) (g ⟨⟩) Q Bad) :
    Pairs s t (leave >>= f) (leave >>= g) Q Bad := h

theorem modify {k k' : State → State} {f g : PUnit → Parse α}
    (h : Pairs (k s) (k' t) (f ⟨⟩) (g ⟨⟩) Q Bad) :
    Pairs s t (modify k >>= f) (modify k' >>= g) Q Bad := h

end Pairs

theorem run_advance_eq_ok {s s' : State} : advance.run s = .ok ((), s') ↔
    ∃ tok cursor, fetch s.source (decide (0 < s.nesting)) s.cursor = .ok (tok, cursor) ∧
      s' = { s with tok := tok, cursor := cursor } := by
  have hrun : advance.run s = (fetch s.source (decide (0 < s.nesting)) s.cursor).map
      fun found => ((), { s with tok := found.1, cursor := found.2 }) := by
    simp only [advance, StateT.run_bind, StateT.run_get, pure_bind, StateT.run_monadLift]
    cases fetch s.source (decide (0 < s.nesting)) s.cursor <;> rfl
  rw [hrun, Except.map_eq_ok]
  constructor
  · rintro ⟨⟨tok, cursor⟩, hfetch, heq⟩
    cases heq
    exact ⟨tok, cursor, hfetch, rfl⟩
  · rintro ⟨tok, cursor, hfetch, rfl⟩
    exact ⟨(tok, cursor), hfetch, rfl⟩

theorem run_skipNewlines_eq_ok {s s' : State} : skipNewlines.run s = .ok ((), s') ↔
    s.tok.kind ≠ .newline ∧ s' = s ∨ s.tok.kind = .newline ∧
      ∃ tok cursor, significant s.source (s.cursor.rest.length + 1) (s.tok, s.cursor) =
        .ok (tok, cursor) ∧ s' = { s with tok := tok, cursor := cursor } := by
  by_cases hline : s.tok.kind = .newline
  · have hrun : skipNewlines.run s =
        (significant s.source (s.cursor.rest.length + 1) (s.tok, s.cursor)).map
          fun found => ((), { s with tok := found.1, cursor := found.2 }) := by
      simp only [skipNewlines, StateT.run_bind, StateT.run_get, pure_bind, hline, if_true,
        StateT.run_monadLift]
      cases significant s.source (s.cursor.rest.length + 1) (s.tok, s.cursor) <;> rfl
    rw [hrun, Except.map_eq_ok]
    constructor
    · rintro ⟨⟨tok, cursor⟩, hfound, heq⟩
      cases heq
      exact .inr ⟨hline, tok, cursor, hfound, rfl⟩
    · rintro (⟨hne, -⟩ | ⟨-, tok, cursor, hfound, rfl⟩)
      · exact absurd hline hne
      · exact ⟨(tok, cursor), hfound, rfl⟩
  · have hrun : skipNewlines.run s = .ok ((), s) := by
      simp only [skipNewlines, StateT.run_bind, StateT.run_get, pure_bind, hline, if_false]
      rfl
    rw [hrun]
    constructor
    · rintro ⟨⟩
      exact .inl ⟨hline, rfl⟩
    · rintro (⟨-, rfl⟩ | ⟨h, -⟩)
      · rfl
      · exact absurd h hline

theorem run_peek_eq_ok {s s' : State} {t : Token} : peek.run s = .ok (t, s') ↔
    (∃ cursor, Lexer.next s.source s.cursor = .ok (t, cursor)) ∧ s' = s := by
  have hrun : peek.run s = (Lexer.next s.source s.cursor).map fun found => (found.1, s) := by
    simp only [peek, StateT.run_bind, StateT.run_get, pure_bind, StateT.run_monadLift]
    cases Lexer.next s.source s.cursor <;> rfl
  rw [hrun, Except.map_eq_ok]
  constructor
  · rintro ⟨⟨tok, cursor⟩, hnext, heq⟩
    cases heq
    exact ⟨⟨cursor, hnext⟩, rfl⟩
  · rintro ⟨⟨cursor, hnext⟩, rfl⟩
    exact ⟨(t, cursor), hnext, rfl⟩

theorem expression_eq_ok {source : Source} {e : Expr} : expression source = .ok e ↔
    ∃ s s1 s2 s3, start source (.ofSource source) 0 = .ok s ∧ skipNewlines.run s = .ok ((), s1) ∧
      (parseExpr (depthBound source)).run s1 = .ok (e, s2) ∧ skipNewlines.run s2 = .ok ((), s3) ∧
        s3.tok.kind = .eof := by
  have hend (e : Expr) (s3 : State) (r : Expr × State) :
      StateT.run (do
        if (← current).kind ≠ .eof then failHere .trailingToken
        pure e : Parse Expr) s3 = .ok r ↔ s3.tok.kind = .eof ∧ r = (e, s3) := by
    change StateT.run (if s3.tok.kind ≠ .eof then failHere .trailingToken >>= fun _ => pure e
      else pure e : Parse Expr) s3 = .ok r ↔ _
    split
    · next hne => exact ⟨nofun, fun h => absurd h.1 hne⟩
    · next heof =>
      refine ⟨?_, ?_⟩
      · rintro ⟨⟩
        exact ⟨not_not.1 heof, rfl⟩
      · rintro ⟨-, rfl⟩
        rfl
  constructor
  · intro h
    obtain ⟨s, hstart, h⟩ := Except.bind_eq_ok.1 h
    obtain ⟨⟨e', s4⟩, hrun, rfl⟩ := Except.map_eq_ok.1 h
    obtain ⟨⟨⟩, s1, hfirst, hrun⟩ := run_bind_eq_ok.1 hrun
    obtain ⟨e, s2, hexpr, hrun⟩ := run_bind_eq_ok.1 hrun
    obtain ⟨⟨⟩, s3, hlast, hrun⟩ := run_bind_eq_ok.1 hrun
    obtain ⟨heof, heq⟩ := (hend e s3 _).1 hrun
    cases heq
    exact ⟨s, s1, s2, _, hstart, hfirst, hexpr, hlast, heof⟩
  · rintro ⟨s, s1, s2, s3, hstart, hfirst, hexpr, hlast, heof⟩
    refine Except.bind_eq_ok.2 ⟨s, hstart, Except.map_eq_ok.2 ⟨(e, s3), ?_, rfl⟩⟩
    refine run_bind_eq_ok.2 ⟨(), s1, hfirst, run_bind_eq_ok.2 ⟨e, s2, hexpr, ?_⟩⟩
    exact run_bind_eq_ok.2 ⟨(), s3, hlast, (hend e s3 _).2 ⟨heof, rfl⟩⟩

/-- The states belong together, with these brackets open and at these nestings. -/
structure Tandem.At (T : Tandem) (K : List String) (n m : Nat) (s t : State) : Prop where
  goes : T.Goes K s t
  left : s.nesting = n
  right : t.nesting = m

namespace Tandem.At

variable {T : Tandem} {K K' : List String} {n m : Nat} {s t : State} {α : Type}
  {Q : α → State → α → State → Prop} {Bad : α → State → Prop}

theorem alike (h : T.At K n m s t) : s.tok.Alike t.tok := T.alike h.goes

theorem nested (h : T.At K n m s t) (n' m' : Nat) :
    T.At K n' m' { s with nesting := n' } { t with nesting := m' } :=
  ⟨T.nested n' m' h.goes, rfl, rfl⟩

theorem enter (h : T.At K n m s t) : T.At K (n + 1) (m + 1) { s with nesting := s.nesting + 1 }
    { t with nesting := t.nesting + 1 } := by
  rw [h.left, h.right]
  exact h.nested _ _

theorem leave (h : T.At K (n + 1) (m + 1) s t) : T.At K n m { s with nesting := s.nesting - 1 }
    { t with nesting := t.nesting - 1 } := by
  rw [h.left, h.right]
  exact h.nested _ _

theorem sees (h : T.At K n m s t) {symbol : String} (hne : symbol ≠ "\x7d") {f g : Bool → Parse α}
    (hf : Pairs s t (f (s.tok.isSymbol symbol)) (g (s.tok.isSymbol symbol)) Q Bad) :
    Pairs s t (Parser.sees symbol >>= f) (Parser.sees symbol >>= g) Q Bad := by
  rw [← h.alike.isSymbol hne] at hf
  rw [h.alike.isSymbol hne] at hf
  change Pairs s t (f (s.tok.isSymbol symbol)) (g (t.tok.isSymbol symbol)) Q Bad
  rw [h.alike.isSymbol hne]
  exact hf

theorem seesWord (h : T.At K n m s t) {word : String} {f g : Bool → Parse α}
    (hf : Pairs s t (f (s.tok.isWord word)) (g (s.tok.isWord word)) Q Bad) :
    Pairs s t (Parser.seesWord word >>= f) (Parser.seesWord word >>= g) Q Bad := by
  change Pairs s t (f (s.tok.isWord word)) (g (t.tok.isWord word)) Q Bad
  rw [h.alike.isWord]
  exact hf

theorem pairs_advance (h : T.At K n m s t) (hturns : Turns K s.tok K') (hnests : T.Nests K' n m) :
    Pairs s t Parser.advance Parser.advance (fun _ s' _ t' => T.At K' n m s' t') Clean := by
  rintro ⟨⟩ s' hrun
  obtain ⟨tok, cursor, hfetch, rfl⟩ := run_advance_eq_ok.1 hrun
  rw [← h.left, ← h.right] at hnests
  obtain ⟨tok', cursor', hfetch', hgoes⟩ := T.fetched h.goes hturns hnests hfetch
  exact .inl ⟨⟨⟩, _, run_advance_eq_ok.2 ⟨tok', cursor', hfetch', rfl⟩, hgoes, h.left, h.right⟩

theorem advance (h : T.At K n m s t) (hturns : Turns K s.tok K') (hnests : T.Nests K' n m)
    {f g : Unit → Parse α}
    (hf : ∀ s' t', T.At K' n m s' t' → Pairs s' t' (f ⟨⟩) (g ⟨⟩) Q Bad) :
    Pairs s t (Parser.advance >>= f) (Parser.advance >>= g) Q Bad :=
  (h.pairs_advance hturns hnests).andThen fun _ s' _ t' h' => hf s' t' h'

/-- Both pass the symbol, which has to stand here. -/
theorem expect (h : T.At K n m s t) {symbol : String} {place : Expectation}
    (hturns : s.tok.isSymbol symbol = true → Turns K s.tok K') (hnests : T.Nests K' n m)
    {f g : Unit → Parse α}
    (hf : ∀ s' t', s.tok.isSymbol symbol = true → T.At K' n m s' t' →
      Pairs s' t' (f ⟨⟩) (g ⟨⟩) Q Bad) :
    Pairs s t (Parser.expect symbol place >>= f) (Parser.expect symbol place >>= g) Q Bad := by
  have hexpect : Pairs s t (Parser.expect symbol place) (Parser.expect symbol place)
      (fun _ s' _ t' => s.tok.isSymbol symbol = true ∧ T.At K' n m s' t') Clean := by
    change Pairs s t (if s.tok.isSymbol symbol = true then Parser.advance else Parser.failHere _)
      (if t.tok.isSymbol symbol = true then Parser.advance else Parser.failHere _) _ _
    split
    · next hsymbol =>
      rw [if_pos (h.alike.isSymbol_of_isSymbol hsymbol)]
      exact (h.pairs_advance (hturns hsymbol) hnests).mono (fun _ _ _ _ h' => ⟨hsymbol, h'⟩)
        fun _ _ => id
    · exact .failHere
  exact hexpect.andThen fun _ s' _ t' ⟨hsymbol, h'⟩ => hf s' t' hsymbol h'

/-- Both pass a name, which has to stand here, and find the same one. -/
theorem expectName (h : T.At K n m s t) (hnests : T.Nests K n m) {fault : SyntaxFault}
    {f g : String → Parse α}
    (hf : ∀ name s' t', T.At K n m s' t' → Pairs s' t' (f name) (g name) Q Bad) :
    Pairs s t (Parser.expectName fault >>= f) (Parser.expectName fault >>= g) Q Bad := by
  have hname : Pairs s t (Parser.expectName fault) (Parser.expectName fault)
      (fun a s' b t' => a = b ∧ T.At K n m s' t') Clean := by
    refine .current ?_
    split
    · next hident =>
      obtain ⟨hkind, htext⟩ := h.alike.eq_of_ne (by rw [hident]; decide)
      rw [if_pos (hkind.trans hident), htext]
      have hturns : Turns K s.tok K := .plain (by rw [hident]; decide)
      exact h.advance hturns hnests fun s' t' h' => .pure ⟨rfl, h'⟩
    · exact .failHere
  refine hname.andThen fun a s' b t' ⟨hab, h'⟩ => ?_
  rw [hab]
  exact hf b s' t' h'

/-- Both pass an opening bracket. -/
theorem opening (h : T.At K n m s t) (hnests : T.Nests K n m) {b : String × String}
    (hb : b ∈ brackets) (hsymbol : s.tok.isSymbol b.1 = true) {f g : Unit → Parse α}
    (hf : ∀ s' t', T.At (b.1 :: K) (n + 1) (m + 1) s' t' → Pairs s' t' (f ⟨⟩) (g ⟨⟩) Q Bad) :
    Pairs s t (Parser.enter >>= fun _ => Parser.advance >>= f)
      (Parser.enter >>= fun _ => Parser.advance >>= g) Q Bad :=
  .enter (h.enter.advance (.opens hb hsymbol) (T.deeper hb hnests) hf)

/-- Both pass a closing bracket, which has to stand here. -/
theorem closing {b : String × String} (h : T.At (b.1 :: K) (n + 1) (m + 1) s t)
    (hnests : T.Nests K n m) (hb : b ∈ brackets) {place : Expectation} {f g : Token → Parse α}
    (hf : ∀ s' t', T.At K n m s' t' → Pairs s' t' (f s.tok) (g t.tok) Q Bad) :
    Pairs s t
      (Parser.leave >>= fun _ => Parser.current >>= fun close =>
        Parser.expect b.2 place >>= fun _ => f close)
      (Parser.leave >>= fun _ => Parser.current >>= fun close =>
        Parser.expect b.2 place >>= fun _ => g close) Q Bad :=
  .leave (.current (h.leave.expect (fun hsymbol => .closes hb hsymbol) hnests
    fun s' t' _ h' => hf s' t' h'))

/-- Both pass a closing bracket, at which the first one is known to stand. -/
theorem closed {b : String × String} (h : T.At (b.1 :: K) (n + 1) (m + 1) s t)
    (hnests : T.Nests K n m) (hb : b ∈ brackets) (hsymbol : s.tok.isSymbol b.2 = true)
    {f g : Token → Parse α}
    (hf : ∀ s' t', T.At K n m s' t' → Pairs s' t' (f s.tok) (g t.tok) Q Bad) :
    Pairs s t
      (Parser.leave >>= fun _ => Parser.current >>= fun close =>
        Parser.advance >>= fun _ => f close)
      (Parser.leave >>= fun _ => Parser.current >>= fun close =>
        Parser.advance >>= fun _ => g close) Q Bad :=
  .leave (.current (h.leave.advance (.closes hb hsymbol) hnests hf))

/-- Both pass a symbol that is no bracket. -/
theorem symbol (h : T.At K n m s t) (hnests : T.Nests K n m) {symbol : String}
    (hsymbol : s.tok.isSymbol symbol = true) (hno : ∀ b ∈ brackets, symbol ≠ b.1 ∧ symbol ≠ b.2)
    {f g : Unit → Parse α}
    (hf : ∀ s' t', T.At K n m s' t' → Pairs s' t' (f ⟨⟩) (g ⟨⟩) Q Bad) :
    Pairs s t (Parser.advance >>= f) (Parser.advance >>= g) Q Bad :=
  h.advance (.symbol hsymbol hno) hnests hf

/-- Both go on, behind the current token if it is the wanted one. -/
theorem passing (h : T.At K n m s t) (hnests : T.Nests K n m) {wanted : Prop} [Decidable wanted]
    (hturns : wanted → Turns K s.tok K) {f g : Unit → Parse α}
    (hf : ∀ r s' t', T.At K n m s' t' → Pairs s' t' (f r) (g r) Q Bad) :
    Pairs s t (if wanted then Parser.advance >>= f else f ())
      (if wanted then Parser.advance >>= g else g ()) Q Bad :=
  .ite (fun hwanted => h.advance (hturns hwanted) hnests (hf _)) fun _ => hf _ s t h

/-- Both go on behind a comma, or where nothing is missing. -/
theorem separated (h : T.At K n m s t) (hnests : T.Nests K n m) {missing missing' : Prop}
    [Decidable missing] [Decidable missing'] (hmissing : ¬missing → ¬missing')
    {fault : SyntaxFault} {f g : Unit → Parse α}
    (hf : ∀ r s' t', T.At K n m s' t' → Pairs s' t' (f r) (g r) Q Bad) :
    Pairs s t
      (if s.tok.isSymbol "," = true then Parser.advance >>= f
        else if missing then Parser.failHere fault >>= f else f ())
      (if t.tok.isSymbol "," = true then Parser.advance >>= g
        else if missing' then Parser.failHere fault >>= g else g ()) Q Bad := by
  rw [h.alike.isSymbol (by decide)]
  refine .ite (fun hcomma => h.symbol hnests hcomma (by decide) (hf _)) fun _ => ?_
  exact .guarded hmissing fun _ => hf _ s t h

theorem skipNewlines (h : T.At K n m s t) (hlined : Lined K) {f g : Unit → Parse α}
    (hf : ∀ s' t', T.At K n m s' t' → Pairs s' t' (f ⟨⟩) (g ⟨⟩) Q Bad) :
    Pairs s t (Parser.skipNewlines >>= f) (Parser.skipNewlines >>= g) Q Bad := by
  have hskip : Pairs s t Parser.skipNewlines Parser.skipNewlines
      (fun _ s' _ t' => T.At K n m s' t') Clean := by
    rintro ⟨⟩ s' hrun
    have hkind := h.alike.kind_iff .newline (by decide) (by decide)
    obtain ⟨hne, rfl⟩ | ⟨hline, tok, cursor, hfound, rfl⟩ := run_skipNewlines_eq_ok.1 hrun
    · exact .inl ⟨⟨⟩, t, run_skipNewlines_eq_ok.2 (.inl ⟨mt hkind.1 hne, rfl⟩), h⟩
    · obtain ⟨tok', cursor', hfound', hgoes⟩ := T.skipped h.goes hlined hline hfound
      refine .inl ⟨⟨⟩, _, run_skipNewlines_eq_ok.2 (.inr ⟨hkind.2 hline, tok', cursor', hfound',
        rfl⟩), hgoes, h.left, h.right⟩
  exact hskip.andThen fun _ s' _ t' h' => hf s' t' h'

/-- Behind a name, where ends of lines count, both see the same next token. -/
theorem peek (h : T.At K n m s t) (hlined : Lined K) (hident : s.tok.kind = .ident)
    {f g : Token → Parse α}
    (hf : ∀ a b : Token, a.Alike b → Pairs s t (f a) (g b) Q Bad) :
    Pairs s t (Parser.peek >>= f) (Parser.peek >>= g) Q Bad := by
  have hpeek : Pairs s t Parser.peek Parser.peek
      (fun a s' b t' => a.Alike b ∧ s' = s ∧ t' = t) Clean := by
    intro a s' hrun
    obtain ⟨⟨cursor, hnext⟩, rfl⟩ := run_peek_eq_ok.1 hrun
    obtain ⟨b, cursor', hnext', halike⟩ := T.peeked h.goes hlined hident hnext
    exact .inl ⟨b, t, run_peek_eq_ok.2 ⟨⟨cursor', hnext'⟩, rfl⟩, halike, rfl, rfl⟩
  refine hpeek.andThen ?_
  rintro a _ b _ ⟨halike, rfl, rfl⟩
  exact hf a b halike

/-- Behind a dot both see the same next token, or the second one misses a name. -/
theorem peekStep (h : T.At K n m s t) (hdot : s.tok.isSymbol "." = true) {f g : Token → Parse α}
    (hf : ∀ a b : Token, a.Alike b → (∃ cursor, Lexer.next s.source s.cursor = .ok (a, cursor)) →
      Pairs s t (f a) (g b) Q Bad)
    (htorn : ∀ a b : Token, b.kind ≠ .ident →
      (a.kind = .ident → T.Torn (s.tok.span.through a.span)) → Pairs s t (f a) (g b) Q Bad) :
    Pairs s t (Parser.peek >>= f) (Parser.peek >>= g) Q Bad := by
  have hpeek : Pairs s t Parser.peek Parser.peek (fun a s' b t' => (a.Alike b ∧
      (∃ cursor, Lexer.next s.source s.cursor = .ok (a, cursor)) ∨
        b.kind ≠ .ident ∧ (a.kind = .ident → T.Torn (s.tok.span.through a.span))) ∧
          s' = s ∧ t' = t) Clean := by
    intro a s' hrun
    obtain ⟨⟨cursor, hnext⟩, rfl⟩ := run_peek_eq_ok.1 hrun
    obtain ⟨b, cursor', hnext', hseen⟩ := T.torn h.goes hdot hnext
    refine .inl ⟨b, t, run_peek_eq_ok.2 ⟨⟨cursor', hnext'⟩, rfl⟩, ?_, rfl, rfl⟩
    exact hseen.imp_left fun halike => ⟨halike, cursor, hnext⟩
  refine hpeek.andThen ?_
  rintro a _ b _ ⟨⟨halike, hnext⟩ | ⟨hmiss, hmark⟩, rfl, rfl⟩
  · exact hf a b halike hnext
  · exact htorn a b hmiss hmark

/-- Both pass a token behind which the first one has seen a name. -/
theorem advanceTo (h : T.At K n m s t) (hturns : Turns K s.tok K') (hnests : T.Nests K' n m)
    {name : Token} (hident : name.kind = .ident)
    (hname : ∃ cursor, Lexer.next s.source s.cursor = .ok (name, cursor)) {f g : Unit → Parse α}
    (hf : ∀ s' t', T.At K' n m s' t' → s'.tok = name → Pairs s' t' (f ⟨⟩) (g ⟨⟩) Q Bad) :
    Pairs s t (Parser.advance >>= f) (Parser.advance >>= g) Q Bad := by
  have hadvance : Pairs s t Parser.advance Parser.advance
      (fun _ s' _ t' => T.At K' n m s' t' ∧ s'.tok = name) Clean := by
    rintro ⟨⟩ s' hrun
    obtain ⟨⟨⟩, t', ht', h'⟩ | hclean := h.pairs_advance hturns hnests ⟨⟩ s' hrun
    · refine .inl ⟨⟨⟩, t', ht', h', ?_⟩
      obtain ⟨tok, cursor, hfetch, rfl⟩ := run_advance_eq_ok.1 hrun
      obtain ⟨behind, hnext⟩ := hname
      obtain ⟨⟨found, after⟩, hfound, hfetch⟩ := Except.bind_eq_ok.1 hfetch
      cases hnext.symm.trans hfound
      have hline : (decide (0 < s.nesting) && name.kind == .newline) = false := by
        rw [hident]
        exact Bool.and_false _
      rw [if_neg (Bool.eq_false_iff.1 hline)] at hfetch
      cases hfetch
      rfl
    · exact hclean.elim
  exact hadvance.andThen fun _ s' _ t' ⟨h', htok⟩ => hf s' t' h' htok

end Tandem.At

end Parser

end StaticConfig
