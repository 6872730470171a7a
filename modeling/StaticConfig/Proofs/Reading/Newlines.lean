import StaticConfig.Proofs.Reading.Along
import StaticConfig.Proofs.Reading.Layout

/-!
A space between two tokens, and an end of a line in its place. Up to the space a lexer reads the
same tokens, and from the next token on it does so again; in between it reads the end of the line.
Where ends of lines do not count the parser fetches the same token in either case.
-/
namespace StaticConfig

open Text.Quoted (Plain)

namespace Lexer

/-- The inside of a comment is passed, whatever follows. -/
theorem skipGap_block {body : List Char} (hbody : ¬['*', '/'] <:+: body) (hplain : Plain body)
    (rest : List Char) (source : Source) (l c offset line col : Nat) : ∃ offset' line' col',
      skipGap source (.blockComment l c) (body ++ '*' :: '/' :: rest) offset line col =
        skipGap source .blank rest offset' line' col' := by
  induction body generalizing offset line col with
  | nil => exact ⟨_, _, _, by rw [List.nil_append, skipGap]⟩
  | cons ch body ih =>
    obtain ⟨hch, hplain⟩ := List.forall_mem_cons.1 hplain
    have hinner : ¬['*', '/'] <:+: body :=
      fun h => hbody (h.trans (List.suffix_cons ch body).isInfix)
    rw [List.cons_append, skipGap, if_neg hch]
    · split
      · exact ih hinner hplain _ _ _
      · exact ih hinner hplain _ _ _
    · rintro more rfl hmore
      cases body with
      | nil => cases hmore
      | cons d body =>
        cases hmore
        exact hbody ⟨[], body, rfl⟩

/-- A gap in which no line ends is passed, whatever follows. -/
theorem skipGap_of_gapped {pos after : Cursor} {gap : List Char} (h : Gapped pos gap after)
    (hafter : ¬LineEnds after.rest) (rest : List Char) (source : Source) (offset line col : Nat) :
    ∃ offset' line' col', skipGap source .blank (gap ++ rest) offset line col =
      skipGap source .blank rest offset' line' col' := by
  induction h generalizing offset line col with
  | stop => exact ⟨offset, line, col, rfl⟩
  | @blank c cs passed _ _ _ after hc hreturn hgapped ih =>
    have hne : c ≠ '\r' := by
      intro hc
      obtain ⟨-, rfl⟩ := hgapped.of_lineEnds (.inl (hreturn hc))
      exact hafter (.inl (hreturn hc))
    simp only [blanks, List.mem_cons, hne, List.not_mem_nil, or_false] at hc
    obtain rfl | rfl := hc
    · exact ih hafter (offset + 1) line (col + 1)
    · exact ih hafter (offset + 1) line (col + 4)
  | line _ _ _ hends => exact absurd hends hafter
  | @block body more passed _ _ _ after hbody hplain _ ih =>
    obtain ⟨offset', line', col', hskip⟩ := skipGap_block hbody hplain (passed ++ rest) source line
      col (offset + 2) line (col + 2)
    obtain ⟨offset'', line'', col'', hrest⟩ := ih hafter offset' line' col'
    refine ⟨offset'', line'', col'', ?_⟩
    rw [← hrest, ← hskip]
    simp only [List.cons_append, List.append_assoc, List.nil_append]
    rw [skipGap]

theorem passes_of_next {source : Source} {pos after : Cursor} {t : Token}
    (h : next source pos = .ok (t, after)) :
    ∃ passed, Passes pos.rest pos.offset passed after := by
  obtain ⟨gap, middle, taken, hgap, -, htakes⟩ := takes_of_next h
  exact ⟨gap ++ taken, hgap.trans htakes.passes⟩

/-- Only the end takes no characters. -/
theorem length_lt_of_next {source : Source} {pos after : Cursor} {t : Token}
    (h : next source pos = .ok (t, after)) (ht : t.kind ≠ .eof) :
    after.rest.length < pos.rest.length := by
  obtain ⟨gap, middle, taken, hgap, -, htakes⟩ := takes_of_next h
  have htaken := List.length_pos_iff.2 (htakes.goes ht)
  rw [hgap.split, htakes.passes.split, List.length_append, List.length_append]
  omega

/-- The next tokens, so many of them, and the cursor behind. -/
def ahead (source : Source) : Nat → Cursor → Option (List Token × Cursor)
  | 0, pos => some ([], pos)
  | n + 1, pos =>
    match next source pos with
    | .ok (t, after) => (ahead source n after).map fun r => (t :: r.1, r.2)
    | .error _ => none

section Ahead

variable {source : Source} {n : Nat} {pos last : Cursor} {ts : List Token}

theorem ahead_succ_eq_some : ahead source (n + 1) pos = some (ts, last) ↔
    ∃ t after more, next source pos = .ok (t, after) ∧ ahead source n after = some (more, last) ∧
      ts = t :: more := by
  rw [ahead]
  cases next source pos with
  | error e =>
    refine ⟨?_, ?_⟩
    · rintro ⟨⟩
    · rintro ⟨_, _, _, ⟨⟩, _⟩
  | ok found =>
    obtain ⟨t, after⟩ := found
    simp only [Option.map_eq_some_iff, Prod.exists]
    constructor
    · rintro ⟨more, _, hmore, heq⟩
      cases heq
      exact ⟨t, after, more, rfl, hmore, rfl⟩
    · rintro ⟨_, _, more, heq, hmore, rfl⟩
      cases heq
      exact ⟨more, last, hmore, rfl⟩

/-- The last token has been read behind the others. -/
theorem Lexed.read_last {back : List Char} {before : List Token} {t : Token}
    (h : Lexed source back (before ++ [t]) last) : Read source back before t last := by
  generalize hall : before ++ [t] = all at h
  cases h with
  | whole => cases before <;> cases hall
  | inside => cases before <;> cases hall
  | next hlexed hnext =>
    obtain ⟨rfl, hlast⟩ := List.append_inj' hall rfl
    cases hlast
    exact ⟨_, hlexed, hnext⟩

theorem rest_of_ahead (h : ahead source n pos = some (ts, last)) :
    ∃ passed, pos.rest = passed ++ last.rest := by
  induction n generalizing pos ts with
  | zero =>
    cases h
    exact ⟨[], rfl⟩
  | succ n ih =>
    obtain ⟨t, after, more, hnext, hmore, rfl⟩ := ahead_succ_eq_some.1 h
    obtain ⟨passed, hpasses⟩ := passes_of_next hnext
    obtain ⟨passed', hrest⟩ := ih hmore
    exact ⟨passed ++ passed', by rw [hpasses.split, hrest, List.append_assoc]⟩

/-- Behind the end there is the end only. -/
theorem atEnd_of_ahead (h : ahead source n pos = some (ts, last)) (hend : atEnd pos.rest = true) :
    atEnd last.rest = true := by
  induction n generalizing pos ts with
  | zero =>
    cases h
    exact hend
  | succ n ih =>
    obtain ⟨t, after, more, hnext, hmore, rfl⟩ := ahead_succ_eq_some.1 h
    rw [next_of_atEnd hend] at hnext
    cases hnext
    exact ih hmore hend

end Ahead

/-- Across the gap the lexer reads the next token, or the end of the line and then this token. -/
theorem next_across {source : Source} {pos mid : Cursor} {gap post : List Char}
    (hgap : Gapped pos gap mid) (hmid : mid.rest = ' ' :: post) {found : Token × Cursor}
    (h : next source pos = .ok found) (source' : Source) {pos' : Cursor}
    (hpos' : pos'.rest = gap ++ '\n' :: post) :
    (∃ passed, post = passed ++ found.2.rest) ∧
      ∃ line found', next source' pos' = .ok line ∧ line.1.kind = .newline ∧
        next source' line.2 = .ok found' ∧ Parser.Twin found found' := by
  have hends : ¬LineEnds mid.rest := by
    rw [hmid]
    rintro (hfirst | hend)
    · cases hfirst
    · cases hend
  obtain ⟨offset, line, col, hskip⟩ := skipGap_of_gapped hgap hends (' ' :: post) source
    pos.offset pos.line pos.col
  rw [← hmid, ← hgap.passes.split] at hskip
  have hpost : next source ⟨post, offset + 1, line, col + 1⟩ = .ok found := by
    rw [← h, next, next, hskip, hmid]
    rfl
  obtain ⟨offset', line', col', hskip'⟩ := skipGap_of_gapped hgap hends ('\n' :: post) source'
    pos'.offset pos'.line pos'.col
  let behind : Cursor := ⟨post, offset' + 1, line' + 1, 1⟩
  have hrest : (⟨post, offset + 1, line, col + 1⟩ : Cursor).rest = behind.rest := rfl
  obtain ⟨found', hfound', htwin⟩ := Parser.twin_next source source' hrest hpost
  have hline : next source' pos' = .ok
      (⟨.newline, "\n", ⟨source', line', col', offset', offset' + 1⟩⟩, behind) := by
    rw [next, hpos', hskip']
    rfl
  refine ⟨?_, _, found', hline, rfl, hfound', htwin⟩
  obtain ⟨t, after⟩ := found
  exact (passes_of_next hpost).imp fun _ hpasses => hpasses.split

end Lexer

end StaticConfig

/-!
Ends of lines in parentheses and square brackets. The end of a line that stands there in place of a
space is passed over wherever the parser goes on to its next token. Only behind the dot of a splat
the parser looks for a name without passing over it.
-/
namespace StaticConfig

open Lexer (ahead Lexed Gapped)

namespace Token

theorem isSymbol_eq {t : Token} {symbol : String} (h : t.isSymbol symbol = true) (other : String) :
    t.isSymbol other = (symbol == other) := by
  obtain ⟨hkind, htext⟩ := isSymbol_iff.1 h
  rw [isSymbol, hkind, htext]
  rfl

end Token

namespace Parser

/-! Which brackets are open can be told from the tokens alone. -/

/-- The brackets that are open behind the token. -/
def turn (K : List String) (t : Token) : List String :=
  match brackets.find? fun b => t.isSymbol b.1 with
  | some b => b.1 :: K
  | none => if brackets.any fun b => t.isSymbol b.2 then K.tail else K

/-- The brackets that are open behind the tokens. The innermost is the first. -/
def openBrackets (ts : List Token) : List String :=
  ts.foldl turn []

theorem openBrackets_concat (ts : List Token) (t : Token) :
    openBrackets (ts ++ [t]) = turn (openBrackets ts) t := by
  rw [openBrackets, List.foldl_append]
  rfl

theorem turn_of_kind {t : Token} (h : t.kind ≠ .symbol) (K : List String) : turn K t = K := by
  simp only [turn, Token.isSymbol_of_kind h]
  rfl

theorem Turns.turn_eq {K K' : List String} {t : Token} (h : Turns K t K') : turn K t = K' := by
  cases h with
  | plain hkind =>
    refine turn_of_kind (fun hsymbol => ?_) K
    rw [hsymbol] at hkind
    exact absurd hkind (by decide)
  | @symbol _ _ s hsymbol hno =>
    have hfirst : brackets.find? (fun b => s == b.1) = none :=
      List.find?_eq_none.2 fun b hb => by simpa using (hno b hb).1
    have hsecond : brackets.any (fun b => s == b.2) = false :=
      List.any_eq_false.2 fun b hb => by simpa using (hno b hb).2
    simp only [turn, Token.isSymbol_eq hsymbol, hfirst, hsecond]
    rfl
  | @opens _ _ b hb hsymbol =>
    have hfirst : ∀ b ∈ brackets, brackets.find? (fun b' => b.1 == b'.1) = some b := by decide
    simp only [turn, Token.isSymbol_eq hsymbol, hfirst b hb]
  | @closes _ _ b hb hsymbol =>
    have hfirst : ∀ b ∈ brackets, brackets.find? (fun b' => b.2 == b'.1) = none := by decide
    have hsecond : ∀ b ∈ brackets, brackets.any (fun b' => b.2 == b'.2) = true := by decide
    simp only [turn, Token.isSymbol_eq hsymbol, hfirst b hb, hsecond b hb]
    rfl

/-! The first token that is not the end of a line. -/

section Settles

variable {source : Source}

/-- From a token on the other one is the first that is not the end of a line. -/
inductive Settles (source : Source) : Token × Cursor → Token × Cursor → Prop
  | done {found : Token × Cursor} : found.1.kind ≠ .newline → Settles source found found
  | skip {found behind last : Token × Cursor} : found.1.kind = .newline →
    Lexer.next source found.2 = .ok behind → Settles source behind last →
      Settles source found last

theorem significant_of_ne {found : Token × Cursor} (h : found.1.kind ≠ .newline) (limit : Nat) :
    significant source limit found = .ok found := by
  obtain ⟨tok, cursor⟩ := found
  cases limit with
  | zero => rfl
  | succ limit =>
    rw [significant]
    exact if_neg h

theorem significant_eq_ok {limit : Nat} {found last : Token × Cursor}
    (hlimit : found.2.rest.length < limit) :
    significant source limit found = .ok last ↔ Settles source found last := by
  constructor
  · intro h
    induction limit generalizing found with
    | zero => omega
    | succ limit ih =>
      by_cases hline : found.1.kind = .newline
      · obtain ⟨tok, cursor⟩ := found
        rw [significant, if_pos hline] at h
        obtain ⟨behind, hnext, h⟩ := Except.bind_eq_ok.1 h
        refine .skip hline hnext ?_
        by_cases hbehind : behind.1.kind = .newline
        · have hlength := Lexer.length_lt_of_next hnext (by rw [hbehind]; decide)
          exact ih (Nat.lt_of_lt_of_le hlength (Nat.le_of_lt_succ hlimit)) h
        · rw [significant_of_ne hbehind] at h
          cases h
          exact .done hbehind
      · rw [significant_of_ne hline] at h
        cases h
        exact .done hline
  · intro h
    induction h generalizing limit with
    | done hline => exact significant_of_ne hline limit
    | @skip found behind last hline hnext hsettles ih =>
      obtain ⟨tok, cursor⟩ := found
      obtain ⟨limit, rfl⟩ := Nat.exists_eq_add_one_of_ne_zero (Nat.ne_zero_of_lt hlimit)
      rw [significant, if_pos hline, hnext]
      change significant source limit behind = _
      by_cases hbehind : behind.1.kind = .newline
      · have hlength := Lexer.length_lt_of_next hnext (by rw [hbehind]; decide)
        exact ih (Nat.lt_of_lt_of_le hlength (Nat.le_of_lt_succ hlimit))
      · cases hsettles with
        | done => exact significant_of_ne hbehind limit
        | skip hne => exact absurd hne hbehind

theorem fetch_eq_ok {nested : Bool} {pos : Cursor} {last : Token × Cursor} :
    fetch source nested pos = .ok last ↔ ∃ found, Lexer.next source pos = .ok found ∧
      if nested then Settles source found last else last = found := by
  refine Except.bind_eq_ok.trans (exists_congr fun found => and_congr_right fun _ => ?_)
  cases nested with
  | false => exact ⟨fun h => by cases h; rfl, fun h => by rw [h]; rfl⟩
  | true =>
    rw [if_pos rfl, ← significant_eq_ok (Nat.lt_succ_self _)]
    by_cases hline : found.1.kind = .newline
    · simp [hline]
    · rw [significant_of_ne hline]
      simp only [beq_eq_false_iff_ne.2 hline]
      rfl

theorem twin_settles {found found' last : Token × Cursor} (source' : Source)
    (htwin : Twin found found') (h : Settles source found last) :
    ∃ last', Settles source' found' last' ∧ Twin last last' := by
  induction h generalizing found' with
  | @done found hline =>
    rw [htwin.1] at hline
    exact ⟨found', .done hline, htwin⟩
  | skip hline hnext _ ih =>
    obtain ⟨behind', hnext', hbehind⟩ := twin_next _ source' htwin.2.2 hnext
    obtain ⟨last', hsettles, hlast⟩ := ih hbehind
    rw [htwin.1] at hline
    exact ⟨last', .skip hline hnext' hsettles, hlast⟩

end Settles

end Parser

/-- A space between two tokens of a source: behind the first tokens there is a gap, and in this the
space. It is in no comment. -/
structure Source.Space (source : Source) where
  count : Nat
  before : List Token
  pos : Cursor
  gap : List Char
  mid : Cursor
  front : List Char
  post : List Char
  reads : ahead source count (.ofSource source) = some (before, pos)
  gapped : Gapped pos gap mid
  rest_eq : mid.rest = ' ' :: post
  split : source.text.toList = front ++ ' ' :: post

namespace Source.Space

open StaticConfig.Parser

variable {source source' : Source} {K K' : List String} {done : List Token} {pos pos' : Cursor}
  {found found' last : Token × Cursor}

/-- The space is in the range. -/
def Torn (space : source.Space) (span : Span) : Prop :=
  span.start ≤ byteLength space.front ∧ byteLength space.front < span.stop

/-- Both lexers stand at the same place before the space, where the second one has the end of a
line. -/
structure Until (space : source.Space) (done : List Token) (pos pos' : Cursor) : Prop where
  lexed : Lexed source [] done pos
  ahead : ∃ n todo, space.before = done ++ todo ∧
    Lexer.ahead source n pos = some (todo, space.pos)
  rest_eq : ∃ text, pos.rest = text ++ ' ' :: space.post ∧ pos'.rest = text ++ '\n' :: space.post

/-- Both have found the same token before the space. -/
def Alongside (space : source.Space) (done : List Token) (found found' : Token × Cursor) : Prop :=
  found'.1.kind = found.1.kind ∧ found'.1.text = found.1.text ∧
    space.Until (done ++ [found.1]) found.2 found'.2

/-- Both stand at the same token, before the space or behind it. Before it these brackets are open
up to the token. -/
def Goes (space : source.Space) (K : List String) (found found' : Token × Cursor) : Prop :=
  (∃ done, openBrackets done = K ∧ space.Alongside done found found') ∨ Twin found found'

theorem Goes.token_eq {space : source.Space} (h : space.Goes K found found') :
    found.1.kind = found'.1.kind ∧ found.1.text = found'.1.text := by
  obtain ⟨done, -, hkind, htext, -⟩ | htwin := h
  · exact ⟨hkind.symm, htext.symm⟩
  · exact ⟨htwin.1, htwin.2.1⟩

/-- A space right behind the first tokens. -/
theorem exists_of_ahead {n : Nat} {front post : List Char}
    (hahead : (ahead source n (.ofSource source)).map (fun r => (openBrackets r.1, r.2.rest)) =
      some (K, ' ' :: post)) (hsplit : source.text.toList = front ++ ' ' :: post) :
    ∃ space : source.Space, space.front = front ∧ space.post = post ∧
      openBrackets space.before = K := by
  obtain ⟨⟨before, pos⟩, hreads, heq⟩ := Option.map_eq_some_iff.1 hahead
  obtain ⟨rfl, hrest⟩ := Prod.ext_iff.1 heq
  exact ⟨⟨n, before, pos, [], pos, front, post, hreads, .stop, hrest, hsplit⟩, rfl, rfl, rfl⟩

theorem pos_rest_eq (space : source.Space) : space.pos.rest = space.gap ++ ' ' :: space.post := by
  rw [space.gapped.passes.split, space.rest_eq]

theorem until_start (space : source.Space)
    (htext : source'.text.toList = space.front ++ '\n' :: space.post) :
    space.Until [] (.ofSource source) (.ofSource source') :=
  ⟨.whole, ⟨space.count, space.before, rfl, space.reads⟩, space.front, space.split, htext⟩

theorem inert_blank {c : Char} (hc : c ∈ [' ', '\n', '\x7d']) (post : List Char) :
    Lexer.Inert (c :: post) := by
  rintro _ ⟨⟩
  exact hc

/-- Before the space both lexers read the same token. Across it the second one reads the end of the
line first. -/
theorem Until.next {space : source.Space} (h : space.Until done pos pos')
    (hnext : Lexer.next source pos = .ok found) (source' : Source) :
    (∃ found', Lexer.next source' pos' = .ok found' ∧ space.Alongside done found found') ∨
      (done = space.before ∧ pos = space.pos ∧ ∃ passed, space.post = passed ++ found.2.rest) ∧
        ∃ line found', Lexer.next source' pos' = .ok line ∧ line.1.kind = .newline ∧
          Lexer.next source' line.2 = .ok found' ∧ Twin found found' := by
  obtain ⟨n, todo, hbefore, hahead⟩ := h.ahead
  obtain ⟨text, hrest, hrest'⟩ := h.rest_eq
  have hpos := space.pos_rest_eq
  cases n with
  | zero =>
    cases hahead
    obtain rfl := List.append_cancel_right (hpos.symm.trans hrest)
    obtain ⟨hpost, hacross⟩ := Lexer.next_across space.gapped space.rest_eq hnext source' hrest'
    rw [List.append_nil] at hbefore
    exact .inr ⟨⟨hbefore.symm, rfl, hpost⟩, hacross⟩
  | succ n =>
    obtain ⟨t, after, more, hfound, hmore, rfl⟩ := Lexer.ahead_succ_eq_some.1 hahead
    cases hfound.symm.trans hnext
    obtain ⟨passed, hafter⟩ := Lexer.rest_of_ahead hmore
    rw [hpos, ← List.append_assoc] at hafter
    have hgoes : t.kind ≠ .eof := by
      intro heof
      obtain ⟨_, _, taken, -, -, htakes⟩ := Lexer.takes_of_next hfound
      have hend := Lexer.atEnd_of_ahead hmore (htakes.ends heof).2
      obtain ⟨-, hmid⟩ := space.gapped.of_lineEnds (.inr hend)
      rw [← hmid, space.rest_eq] at hend
      cases hend
    obtain ⟨span, after', hnext', hafter'⟩ := Lexer.lexes_of_next hfound hrest hafter
      (inert_blank (by decide) space.post) (inert_blank (c := '\n') (by decide) space.post)
      (fun heof => absurd heof hgoes) source' pos'.offset pos'.line pos'.col
    rw [← hrest'] at hnext'
    refine .inl ⟨_, hnext', rfl, rfl, h.lexed.next hfound, ⟨n, more, ?_, hmore⟩, _, hafter, hafter'⟩
    rw [hbefore, List.append_assoc]
    rfl

/-- Where ends of lines do not count, both find the same token, across the space too. -/
theorem Until.settles {space : source.Space} (h : space.Until done pos pos')
    (hnext : Lexer.next source pos = .ok found) (hsettles : Settles source found last)
    (source' : Source) :
    ∃ found' last', Lexer.next source' pos' = .ok found' ∧ Settles source' found' last' ∧
      space.Goes (openBrackets done) last last' := by
  induction hsettles generalizing done pos pos' with
  | @done found hline =>
    obtain ⟨found', hnext', halong⟩ | ⟨-, line, found', hline', hkind, hfound', htwin⟩ :=
      h.next hnext source'
    · exact ⟨found', found', hnext', .done (by rwa [halong.1]), .inl ⟨done, rfl, halong⟩⟩
    · have hsettles : Settles source' found' found' := .done (by rwa [htwin.1] at hline)
      exact ⟨line, found', hline', .skip hkind hfound' hsettles, .inr htwin⟩
  | @skip found behind last hline hbehind hsettles ih =>
    obtain ⟨found', hnext', halong⟩ | ⟨-, line, found', hline', hkind, hfound', htwin⟩ :=
      h.next hnext source'
    · obtain ⟨behind', last', hbehind', hsettles', hgoes⟩ := ih halong.2.2 hbehind
      rw [openBrackets_concat, turn_of_kind (by rw [hline]; decide)] at hgoes
      exact ⟨found', last', hnext', .skip (halong.1.trans hline) hbehind' hsettles', hgoes⟩
    · obtain ⟨last', hsettles', hlast⟩ := twin_settles source' htwin (.skip hline hbehind hsettles)
      exact ⟨line, last', hline', .skip hkind hfound' hsettles', .inr hlast⟩

/-- Where ends of lines count there is no space to cross. -/
theorem Until.next_of_lined {space : source.Space} (h : space.Until done pos pos')
    (hopen : ¬Lined (openBrackets space.before)) (hlined : Lined (openBrackets done))
    (hnext : Lexer.next source pos = .ok found) (source' : Source) :
    ∃ found', Lexer.next source' pos' = .ok found' ∧ space.Alongside done found found' := by
  obtain halong | ⟨⟨rfl, -⟩, -⟩ := h.next hnext source'
  · exact halong
  · exact absurd hlined hopen

theorem Until.fetch {space : source.Space} (h : space.Until done pos pos')
    (hopen : ¬Lined (openBrackets space.before)) {nested : Bool}
    (hnested : ¬Lined (openBrackets done) → nested = true)
    (hfetch : Parser.fetch source nested pos = .ok last) (source' : Source) :
    ∃ last', Parser.fetch source' nested pos' = .ok last' ∧
      space.Goes (openBrackets done) last last' := by
  obtain ⟨found, hnext, hfound⟩ := fetch_eq_ok.1 hfetch
  cases nested with
  | false =>
    have hlined := not_not.1 (mt hnested Bool.false_ne_true)
    obtain ⟨found', hnext', halong⟩ := h.next_of_lined hopen hlined hnext source'
    cases hfound
    exact ⟨found', fetch_eq_ok.2 ⟨found', hnext', rfl⟩, .inl ⟨done, rfl, halong⟩⟩
  | true =>
    obtain ⟨found', last', hnext', hsettles, hgoes⟩ := h.settles hnext hfound source'
    exact ⟨last', fetch_eq_ok.2 ⟨found', hnext', hsettles⟩, hgoes⟩

/-- A name across the space tears the range from the dot before it. -/
theorem torn_across (space : source.Space) {dot name : Token} {after : Cursor}
    (hlexed : Lexed source [] (done ++ [dot]) space.pos) (hdot : dot.isSymbol "." = true)
    (hnext : Lexer.next source space.pos = .ok (name, after)) (hname : name.kind = .ident)
    (hpost : ∃ passed, space.post = passed ++ after.rest) :
    space.Torn (dot.span.through name.span) := by
  obtain ⟨passed, hpassed⟩ := hpost
  constructor
  · -- The dot ends where the gap begins, which is before the space.
    have hread := hlexed.read_last
    obtain ⟨_, _, -, hstart, hstop⟩ := hread.segment
    obtain ⟨text, hsplit, hoffset⟩ := hlexed.lies
    have hfront : space.front = text ++ space.gap := by
      rw [space.split, space.pos_rest_eq, List.append_nil, ← List.append_assoc] at hsplit
      exact List.append_cancel_right hsplit
    have hend := hread.offset_eq
    rw [hstop, byteLength_append] at hend
    rw [Token.writtenStart, if_neg (Token.ne_string_of_isSymbol hdot)] at hstart
    rw [Span.through, hfront, byteLength_append]
    dsimp only
    omega
  · -- The name ends behind the space.
    have hread : Lexer.Read source [] (done ++ [dot]) name after := ⟨space.pos, hlexed, hnext⟩
    obtain ⟨text, hsplit, hoffset⟩ := hread.lexed.lies
    have hfront : text = space.front ++ ' ' :: passed := by
      rw [space.split, hpassed, List.append_nil, ← List.cons_append, ← List.append_assoc] at hsplit
      exact (List.append_cancel_right hsplit).symm
    have hend := hread.offset_eq
    rw [Token.writtenStop_of_ne (by rw [hname]; decide), hoffset, hfront, byteLength_append,
      byteLength_cons] at hend
    have hspace : (' ' : Char).utf8Size = 1 := rfl
    rw [Span.through]
    dsimp only
    omega

end Source.Space

namespace Parser

variable {source : Source}

/-- The parser of a source and that of the source with the end of a line for a space. -/
def Tandem.spaced (space : source.Space) (hopen : ¬Lined (openBrackets space.before)) : Tandem where
  Goes K s t := s.source = source ∧ space.Goes K (s.tok, s.cursor) (t.tok, t.cursor)
  Nests K n m := n = m ∧ (¬Lined K → 0 < n)
  Torn := space.Torn
  alike h := .inl h.2.token_eq
  nested _ _ h := h
  deeper _ h := ⟨congrArg (· + 1) h.1, fun _ => Nat.succ_pos _⟩
  lined := by
    refine ⟨rfl, fun h => absurd ?_ h⟩
    change some "\x7b" ∉ [some "(", some "["]
    decide
  fetched {K K' s t tok cursor} h hturns hnests hfetch := by
    obtain ⟨rfl, ⟨done, rfl, -, -, huntil⟩ | htwin⟩ := h
    · have hturn : openBrackets (done ++ [s.tok]) = K' :=
        (openBrackets_concat done s.tok).trans hturns.turn_eq
      rw [← hturn] at hnests ⊢
      obtain ⟨last', hfetch', hgoes⟩ := huntil.fetch hopen
        (fun hlined => decide_eq_true (hnests.2 hlined)) hfetch t.source
      rw [hnests.1] at hfetch'
      exact ⟨last'.1, last'.2, hfetch', rfl, hgoes⟩
    · obtain ⟨last', hfetch', hlast⟩ := twin_fetch s.source t.source htwin.2.2 hfetch
      rw [hnests.1] at hfetch'
      exact ⟨last'.1, last'.2, hfetch', rfl, .inr hlast⟩
  skipped {K s t tok cursor} h _ hline hfound := by
    have hsettles : Settles s.source (s.tok, s.cursor) (tok, cursor) :=
      (significant_eq_ok (Nat.lt_succ_self _)).1 hfound
    obtain ⟨rfl, ⟨done, rfl, hkind, -, huntil⟩ | htwin⟩ := h
    · obtain ⟨hne⟩ | ⟨-, hnext, hsettles⟩ := hsettles
      · exact absurd hline hne
      obtain ⟨found', last', hnext', hsettles', hgoes⟩ := huntil.settles hnext hsettles t.source
      rw [openBrackets_concat, turn_of_kind (by rw [hline]; decide)] at hgoes
      exact ⟨last'.1, last'.2, (significant_eq_ok (Nat.lt_succ_self _)).2
        (.skip (hkind.trans hline) hnext' hsettles'), rfl, hgoes⟩
    · obtain ⟨last', hsettles', hlast⟩ := twin_settles t.source htwin hsettles
      have hfound' := (significant_eq_ok (Nat.lt_succ_self _)).2 hsettles'
      exact ⟨last'.1, last'.2, hfound', rfl, .inr hlast⟩
  peeked {K s t tok cursor} h hlined hident hnext := by
    obtain ⟨rfl, ⟨done, rfl, -, -, huntil⟩ | htwin⟩ := h
    · have hturn := turn_of_kind (t := s.tok) (by rw [hident]; decide) (openBrackets done)
      rw [← hturn, ← openBrackets_concat] at hlined
      obtain ⟨found', hnext', hkind, htext, -⟩ := huntil.next_of_lined hopen hlined hnext t.source
      exact ⟨found'.1, found'.2, hnext', .inl ⟨hkind.symm, htext.symm⟩⟩
    · obtain ⟨found', hnext', hfound⟩ := twin_next s.source t.source htwin.2.2 hnext
      exact ⟨found'.1, found'.2, hnext', .inl ⟨hfound.1, hfound.2.1⟩⟩
  torn {K s t tok cursor} h hdot hnext := by
    obtain ⟨rfl, ⟨done, rfl, -, -, huntil⟩ | htwin⟩ := h
    · obtain ⟨found', hnext', hkind, htext, -⟩ | ⟨⟨-, hpos, hpost⟩, line, -, hline, hkind, -⟩ :=
        huntil.next hnext t.source
      · exact ⟨found'.1, found'.2, hnext', .inl (.inl ⟨hkind.symm, htext.symm⟩)⟩
      · have hlexed := huntil.lexed
        change s.cursor = space.pos at hpos
        rw [hpos] at hlexed hnext
        refine ⟨line.1, line.2, hline, .inr ⟨by rw [hkind]; decide, fun hident => ?_⟩⟩
        exact space.torn_across hlexed hdot hnext hident hpost
    · obtain ⟨found', hnext', hfound⟩ := twin_next s.source t.source htwin.2.2 hnext
      exact ⟨found'.1, found'.2, hnext', .inl (.inl ⟨hfound.1, hfound.2.1⟩)⟩

theorem lined_nil : Lined [] := by
  rw [Lined]
  decide

/-- From belonging states both parsers find the same expression up to the ends of their texts. -/
theorem along_whole (fuel : Nat) {space : source.Space}
    {hopen : ¬Lined (openBrackets space.before)} {s t : State}
    (h : (Tandem.spaced space hopen).At [] 0 0 s t) :
    Pairs s t
      (do
        skipNewlines
        let e ← parseExpr fuel
        skipNewlines
        if (← current).kind ≠ .eof then failHere .trailingToken
        pure e)
      (do
        skipNewlines
        let e ← parseExpr fuel
        skipNewlines
        if (← current).kind ≠ .eof then failHere .trailingToken
        pure e)
      (fun e _ e' _ => e.unplaced = e'.unplaced)
      fun e _ => Expr.Tears (Tandem.spaced space hopen).Torn e.parts := by
  have hnests : (Tandem.spaced space hopen).Nests [] 0 0 := ⟨rfl, absurd lined_nil⟩
  refine h.skipNewlines lined_nil fun s1 t1 h1 => ?_
  refine (along_parseExpr fuel hnests h1).bind ?_ fun e s2 hmark => ?_
  · rintro e s2 e' t2 ⟨he, h2⟩
    refine h2.skipNewlines lined_nil fun s3 t3 h3 => .current ?_
    have hkind : s3.tok.kind = t3.tok.kind := h3.goes.2.token_eq.1
    refine .guarded ?_ fun _ => .pure he
    rw [hkind]
    exact id
  · have hfound : Results (fun e => Expr.Tears (Tandem.spaced space hopen).Torn e.parts)
        (pure e) := .pure hmark
    exact Results.from (.after fun _ => .after fun _ => .guarded hfound)

end Parser

open StaticConfig.Parser

/-- The end of a line may stand for a space between two tokens wherever the innermost bracket around
it is a parenthesis or a square bracket, unless it tears a step of a splat. The source is read as
the same tree but for ranges. -/
theorem newline_for_space {source source' : Source} (space : source.Space)
    (hopen : ¬Lined (openBrackets space.before)) {e : Expr}
    (h : Parser.expression source = .ok e) (hsteps : ¬Expr.Tears space.Torn e.parts)
    (htext : source'.text.toList = space.front ++ '\n' :: space.post) :
    ∃ e', Parser.expression source' = .ok e' ∧ e'.unplaced = e.unplaced := by
  obtain ⟨s, hstart, h⟩ := Except.bind_eq_ok.1 h
  obtain ⟨⟨e, s'⟩, hrun, rfl⟩ := Except.map_eq_ok.1 h
  obtain ⟨⟨tok, cursor⟩, hfetch, hs⟩ := Except.bind_eq_ok.1 hstart
  cases hs
  obtain ⟨⟨tok', cursor'⟩, hfetch', hgoes⟩ := (space.until_start htext).fetch hopen
    (absurd lined_nil) hfetch source'
  have hat : (Tandem.spaced space hopen).At [] 0 0 ⟨source, cursor, tok, 0⟩
      ⟨source', cursor', tok', 0⟩ := ⟨⟨rfl, hgoes⟩, rfl, rfl⟩
  obtain ⟨e', t', hrun', he⟩ | hmark := along_whole _ hat e s' hrun
  · have hdepth : depthBound source' = depthBound source := by
      rw [depthBound, depthBound, ← String.length_toList, htext, ← String.length_toList,
        space.split]
      simp
    rw [← hdepth] at hrun'
    refine ⟨e', Except.bind_eq_ok.2 ⟨⟨source', cursor', tok', 0⟩, ?_, ?_⟩, he.symm⟩
    · exact Except.bind_eq_ok.2 ⟨(tok', cursor'), hfetch', rfl⟩
    · exact Except.map_eq_ok.2 ⟨(e', t'), hrun', rfl⟩
  · exact absurd hmark hsteps

/-- Behind the comma between the arguments of a call, the first of which is a splat. -/
theorem newline_for_space_arguments : ∃ e e',
    Parser.expression ⟨"main.tf", "f(a[*].b, c)"⟩ = .ok e ∧
      Parser.expression ⟨"main.tf", "f(a[*].b,\nc)"⟩ = .ok e' ∧ e'.unplaced = e.unplaced := by
  have hahead : (ahead ⟨"main.tf", "f(a[*].b, c)"⟩ 9 (.ofSource ⟨"main.tf", "f(a[*].b, c)"⟩)).map
      (fun r => (openBrackets r.1, r.2.rest)) = some (["("], [' ', 'c', ')']) := by
    decide +kernel
  have hsplit : (⟨"main.tf", "f(a[*].b, c)"⟩ : Source).text.toList =
      "f(a[*].b,".toList ++ ' ' :: ['c', ')'] := by
    decide
  obtain ⟨space, hfront, hpost, hopen⟩ := Source.Space.exists_of_ahead hahead hsplit
  have hbounds : (Parser.expression ⟨"main.tf", "f(a[*].b, c)"⟩).toOption.map (fun e =>
      e.parts.all fun p => p.each.all fun step => decide (step.span.stop ≤ 9)) = some true := by
    decide +kernel
  cases hparse : Parser.expression ⟨"main.tf", "f(a[*].b, c)"⟩ with
  | error fault =>
    rw [hparse] at hbounds
    cases hbounds
  | ok e =>
    rw [hparse] at hbounds
    have hsteps : ¬Expr.Tears space.Torn e.parts := by
      rintro ⟨p, hp, place, name, hstep, -, hstop⟩
      have hall := List.all_eq_true.1 (List.all_eq_true.1 (Option.some.inj hbounds) p hp) _ hstep
      have hplace : place.stop ≤ 9 := of_decide_eq_true hall
      rw [hfront] at hstop
      exact absurd hstop (Nat.not_lt.2 hplace)
    have hlined : ¬Lined (openBrackets space.before) := by
      rw [hopen, Lined]
      decide
    have htext : (⟨"main.tf", "f(a[*].b,\nc)"⟩ : Source).text.toList =
        space.front ++ '\n' :: space.post := by
      rw [hfront, hpost]
      decide
    obtain ⟨e', hparse', he⟩ := newline_for_space space hlined hparse hsteps htext
    exact ⟨e, e', rfl, hparse', he⟩

/-- Behind the dot of a splat a name in the next line is not seen as one of its steps. -/
theorem newline_behind_dot : ∃ space : Source.Space ⟨"main.tf", "(a[*]. b)"⟩,
    ¬Lined (openBrackets space.before) ∧ ∃ e e',
      Parser.expression ⟨"main.tf", "(a[*]. b)"⟩ = .ok e ∧
        Parser.expression ⟨"main.tf", String.ofList (space.front ++ '\n' :: space.post)⟩ = .ok e' ∧
          e'.unplaced ≠ e.unplaced := by
  have hahead : (ahead ⟨"main.tf", "(a[*]. b)"⟩ 6 (.ofSource ⟨"main.tf", "(a[*]. b)"⟩)).map
      (fun r => (openBrackets r.1, r.2.rest)) = some (["("], [' ', 'b', ')']) := by
    decide +kernel
  have hsplit : (⟨"main.tf", "(a[*]. b)"⟩ : Source).text.toList =
      "(a[*].".toList ++ ' ' :: ['b', ')'] := by
    decide
  obtain ⟨space, hfront, hpost, hopen⟩ := Source.Space.exists_of_ahead hahead hsplit
  have htext : String.ofList (space.front ++ '\n' :: space.post) = "(a[*].\nb)" := by
    rw [hfront, hpost]
    rfl
  -- The splat has the one step here, and none there.
  have hsteps : (Parser.expression ⟨"main.tf", "(a[*]. b)"⟩).toOption.map (fun e =>
      e.unplaced.parts.map fun p => p.each.length) = some [0, 1, 0] := by
    decide +kernel
  have hsteps' : (Parser.expression ⟨"main.tf", "(a[*].\nb)"⟩).toOption.map (fun e =>
      e.unplaced.parts.map fun p => p.each.length) = some [0, 0, 0, 0] := by
    decide +kernel
  refine ⟨space, by rw [hopen, Lined]; decide, ?_⟩
  rw [htext]
  cases hparse : Parser.expression ⟨"main.tf", "(a[*]. b)"⟩ with
  | error fault =>
    rw [hparse] at hsteps
    cases hsteps
  | ok e =>
    cases hparse' : Parser.expression ⟨"main.tf", "(a[*].\nb)"⟩ with
    | error fault =>
      rw [hparse'] at hsteps'
      cases hsteps'
    | ok e' =>
      rw [hparse] at hsteps
      rw [hparse'] at hsteps'
      refine ⟨e, e', rfl, rfl, fun hsame => ?_⟩
      change some (e.unplaced.parts.map fun p => p.each.length) = _ at hsteps
      change some (e'.unplaced.parts.map fun p => p.each.length) = _ at hsteps'
      rw [hsame, hsteps] at hsteps'
      cases hsteps'

end StaticConfig
