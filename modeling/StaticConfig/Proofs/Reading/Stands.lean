import StaticConfig.Parser.Body
import StaticConfig.Proofs.Reading.Layout

/-!
Where a parser stands. Its state is at a token that a lexer of the source has read, and as it goes
on there is only filler between the tokens that it passes.
-/
namespace StaticConfig.Parser

open StaticConfig.Except
open StaticConfig.Lexer (Read Beside)

/-- The state stands at a token that a lexer of the source has read, which sees it up to `back`. -/
structure Stands (source : Source) (back : List Char) (s : State) : Prop where
  source_eq : s.source = source
  read : ∃ before, Read source back before s.tok s.cursor

/-- The second state stands at the token that follows the one of the first state. -/
structure Onward (source : Source) (back : List Char) (s s' : State) : Prop where
  stands : Stands source back s'
  beside : Beside source s.tok.writtenStop s'.tok
  ahead : ∀ t after, Lexer.next source s.cursor = .ok (t, after) → t.kind ≠ .newline → s'.tok = t

/-- From this state the parser, if it succeeds, comes to a result and a state with the property. -/
def From {α : Type} (s : State) (p : Parse α) (Q : α → State → Prop) : Prop :=
  Ensures (fun r => Q r.1 r.2) (p.run s)

variable {source : Source} {back : List Char} {s : State}

theorem Stands.nested (hs : Stands source back s) (nesting : Nat) :
    Stands source back { s with nesting := nesting } :=
  ⟨hs.source_eq, hs.read⟩

/-- Where a parser goes has nothing to do with the nesting of brackets before. -/
theorem Onward.of_nested {s' : State} {nesting : Nat}
    (h : Onward source back { s with nesting := nesting } s') : Onward source back s s' :=
  ⟨h.stands, h.beside, h.ahead⟩

theorem read_of_significant {limit : Nat} {before : List Token} {t t' : Token}
    {pos after : Cursor} (hread : Read source back before t pos)
    (h : significant source limit (t, pos) = .ok (t', after)) :
    (∃ before', Read source back before' t' after) ∧
      ∀ place, Beside source place t → Beside source place t' := by
  induction limit generalizing before t pos with
  | zero =>
    cases h
    exact ⟨⟨before, hread⟩, fun _ hbeside => hbeside⟩
  | succ limit ih =>
    rw [significant] at h
    split at h
    · next hnewline =>
      obtain ⟨⟨u, behind⟩, hnext, h⟩ := bind_eq_ok.1 h
      obtain ⟨hread', hbeside⟩ := ih (hread.next hnext) h
      exact ⟨hread', fun place hplace => hbeside place (hplace.next hread hnewline hnext)⟩
    · cases h
      exact ⟨⟨before, hread⟩, fun _ hbeside => hbeside⟩

/-- The token that is fetched from a place on. -/
theorem read_of_fetch {nested : Bool} {before : List Token} {t : Token} {pos after : Cursor}
    (hlexed : Lexer.Lexed source back before pos) (h : fetch source nested pos = .ok (t, after)) :
    (∃ before', Read source back before' t after) ∧ Beside source pos.offset t ∧
      ∀ u behind, Lexer.next source pos = .ok (u, behind) → u.kind ≠ .newline → t = u := by
  obtain ⟨⟨u, behind⟩, hnext, h⟩ := bind_eq_ok.1 h
  have hread : Read source back before u behind := ⟨pos, hlexed, hnext⟩
  have hbeside := hlexed.lies.beside hnext
  split at h
  · next hnewline =>
    obtain ⟨hread', hgoes⟩ := read_of_significant hread h
    refine ⟨hread', hgoes _ hbeside, fun v after' hv hkind => ?_⟩
    rw [hnext] at hv
    cases hv
    rw [Bool.and_eq_true, beq_iff_eq] at hnewline
    exact absurd hnewline.2 hkind
  · cases h
    refine ⟨⟨before, hread⟩, hbeside, fun v after' hv _ => ?_⟩
    rw [hnext] at hv
    cases hv
    rfl

theorem stands_start {nesting : Nat} {pos : Cursor} (hlexed : Lexer.Lexed source back [] pos)
    (h : start source pos nesting = .ok s) : Stands source back s := by
  obtain ⟨⟨t, after⟩, hfetch, hs⟩ := bind_eq_ok.1 h
  cases hs
  exact ⟨rfl, (read_of_fetch hlexed hfetch).1⟩

namespace From

variable {α β : Type} {P : α → State → Prop} {Q : β → State → Prop} {f : α → Parse β}

theorem bind {p : Parse α} (hp : From s p P) (hf : ∀ a s', P a s' → From s' (f a) Q) :
    From s (p >>= f) Q := by
  rw [From, StateT.run_bind]
  exact ensures_bind hp fun r hr => hf r.1 r.2 hr

theorem mono {p : Parse α} {P' : α → State → Prop} (hp : From s p P)
    (h : ∀ a s', P a s' → P' a s') : From s p P' :=
  fun r hr => h r.1 r.2 (hp r hr)

theorem pure {a : α} (h : P a s) : From s (pure a) P :=
  ensures_ok h

theorem fail {span : Span} {fault : SyntaxFault} : From s (fail (α := α) span fault) P :=
  ensures_error

theorem failHere {fault : SyntaxFault} : From s (failHere (α := α) fault) P :=
  ensures_error

theorem lift {r : Except SyntaxError α} (h : ∀ a, r = .ok a → From s (f a) Q) :
    From s (liftM r >>= f) Q := by
  cases r with
  | error e => exact ensures_error
  | ok a => exact h a rfl

/-! The parser looks at the state. -/

theorem get {f : State → Parse β} (h : From s (f s) Q) : From s (get >>= f) Q := h

theorem current {f : Token → Parse β} (h : From s (f s.tok) Q) : From s (current >>= f) Q := h

theorem sees {f : Bool → Parse β} {symbol : String} (h : From s (f (s.tok.isSymbol symbol)) Q) :
    From s (sees symbol >>= f) Q := h

theorem seesWord {f : Bool → Parse β} {word : String} (h : From s (f (s.tok.isWord word)) Q) :
    From s (seesWord word >>= f) Q := h

theorem peek {f : Token → Parse β}
    (h : ∀ t after, Lexer.next s.source s.cursor = .ok (t, after) → From s (f t) Q) :
    From s (peek >>= f) Q := by
  have hpeek : From s Parser.peek fun t s' =>
      s' = s ∧ ∃ after, Lexer.next s.source s.cursor = .ok (t, after) := by
    refine get (lift ?_)
    rintro ⟨t, after⟩ hnext
    exact pure ⟨rfl, after, hnext⟩
  refine hpeek.bind ?_
  rintro t _ ⟨rfl, after, hnext⟩
  exact h t after hnext

/-! The parser changes the state. -/

theorem set {next : State} {f : PUnit → Parse β} (h : From next (f ⟨⟩) Q) :
    From s (set next >>= f) Q := h

theorem modify {g : State → State} {f : PUnit → Parse β} (h : From (g s) (f ⟨⟩) Q) :
    From s (modify g >>= f) Q := h

theorem enter {f : PUnit → Parse β} (h : From { s with nesting := s.nesting + 1 } (f ⟨⟩) Q) :
    From s (enter >>= f) Q := h

theorem leave {f : PUnit → Parse β} (h : From { s with nesting := s.nesting - 1 } (f ⟨⟩) Q) :
    From s (leave >>= f) Q := h

/-! The parser goes on. -/

theorem advance (hs : Stands source back s) : From s advance fun _ => Onward source back s := by
  refine get (lift ?_)
  rintro ⟨t, after⟩ hfetch
  obtain ⟨rfl, before, hread⟩ := hs
  obtain ⟨hread', hbeside, hahead⟩ := read_of_fetch hread.lexed hfetch
  rw [hread.offset_eq] at hbeside
  exact ensures_ok ⟨⟨rfl, hread'⟩, hbeside, hahead⟩

theorem skipNewlines (hs : Stands source back s) : From s skipNewlines fun _ s' =>
    Stands source back s' ∧ ∀ place, Beside source place s.tok → Beside source place s'.tok := by
  refine get ?_
  obtain ⟨rfl, before, hread⟩ := hs
  split
  · refine lift ?_
    rintro ⟨t, after⟩ hfound
    obtain ⟨hread', hgoes⟩ := read_of_significant hread hfound
    exact ensures_ok ⟨⟨rfl, hread'⟩, hgoes⟩
  · exact pure ⟨⟨rfl, before, hread⟩, fun _ h => h⟩

theorem expect (hs : Stands source back s) (symbol : String) (place : Expectation) :
    From s (expect symbol place) fun _ s' =>
      s.tok.isSymbol symbol = true ∧ Onward source back s s' := by
  refine sees ?_
  split
  · next hsymbol => exact (advance hs).mono fun _ _ h => ⟨hsymbol, h⟩
  · exact failHere

theorem expectName (hs : Stands source back s) (fault : SyntaxFault) :
    From s (expectName fault) fun name s' => name = s.tok.text ∧ Onward source back s s' := by
  refine current ?_
  split
  · exact (advance hs).bind fun _ _ h => pure ⟨rfl, h⟩
  · exact failHere

/-- The parser passes an opening bracket. -/
theorem opening {f : PUnit → Parse β} (hs : Stands source back s)
    (h : ∀ s', Onward source back s s' → From s' (f ⟨⟩) Q) :
    From s (Parser.enter >>= fun _ => Parser.advance >>= f) Q :=
  enter ((advance (hs.nested _)).bind fun _ s' hgo => h s' hgo.of_nested)

/-- The parser passes a closing bracket, which has to stand here. -/
theorem closing {f : Token → Parse β} (hs : Stands source back s) (symbol : String)
    (place : Expectation)
    (h : ∀ s', s.tok.isSymbol symbol = true → Onward source back s s' → From s' (f s.tok) Q) :
    From s (Parser.leave >>= fun _ => Parser.current >>= fun close =>
      Parser.expect symbol place >>= fun _ => f close) Q :=
  leave (current ((expect (hs.nested _) symbol place).bind fun _ s' ⟨hclose, hgo⟩ =>
    h s' hclose hgo.of_nested))

/-- The parser passes a closing bracket, at which it is known to stand. -/
theorem closed {f : Token → Parse β} (hs : Stands source back s)
    (h : ∀ s', Onward source back s s' → From s' (f s.tok) Q) :
    From s (Parser.leave >>= fun _ => Parser.current >>= fun close =>
      Parser.advance >>= fun _ => f close) Q :=
  leave (current ((advance (hs.nested _)).bind fun _ s' hgo => h s' hgo.of_nested))

variable {p : Parse α} {rest : Unit → Parse α}

/-- The parser goes on unless something is missing. -/
theorem guarded {missing : Prop} [Decidable missing] {fault : SyntaxFault}
    (h : ¬missing → From s (rest ()) P) :
    From s (if missing then Parser.failHere fault >>= rest else rest ()) P := by
  split
  · exact ensures_error
  · next hgoes => exact h hgoes

/-- The parser goes on with a result that it finds in one way or another, or with a fixed one. -/
theorem choosing {c : Prop} [Decidable c] {fixed : β} {rest : β → Parse α}
    (R : β → State → Prop) (h : ∀ b s', R b s' → From s' (rest b) P) (hfixed : ¬c → R fixed s)
    (hp : c → (∀ b s', R b s' → From s' (rest b) P) → From s p P) :
    From s (if c then p else Pure.pure fixed >>= rest) P := by
  split
  · next hc => exact hp hc h
  · next hc => exact h fixed s (hfixed hc)

end From

end StaticConfig.Parser
