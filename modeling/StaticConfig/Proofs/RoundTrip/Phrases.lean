import Mathlib.Data.List.Forall2
import StaticConfig.Parser.Expr
import StaticConfig.Proofs.RoundTrip.Tokens
import StaticConfig.Value.Printer

/-!
Runs of the parser described by the text they pass. `Runs` says from which text within how many
brackets a parser comes to which; its rules follow the parts that parsers are put together from.
-/
namespace StaticConfig.Parser

open Lexer (Lexes Breaks)

variable {α β : Type} {n m k : Nat} {cs mid rest rest' tail : List Char} {kind kind' : TokenKind}
  {text text' : String}

/-- The state stands before `cs` within `n` brackets: its token is the first one there. -/
structure At (n : Nat) (cs : List Char) (s : State) : Prop where
  nesting : s.nesting = n
  next : ∃ offset line col, Lexer.next s.source ⟨cs, offset, line, col⟩ = .ok (s.tok, s.cursor)

/-- The token before `cs` is not passed over within `n` brackets. -/
def Seen (n : Nat) (cs : List Char) : Prop :=
  ∃ kind text rest, Lexes cs kind text rest ∧ (n = 0 ∨ kind ≠ .newline)

/-- From every state before `cs` the parser succeeds, stands before `rest` then, and its result
satisfies `P`. -/
def Runs (n : Nat) (cs : List Char) (p : Parse α) (m : Nat) (rest : List Char) (P : α → Prop) :
    Prop :=
  ∀ s, At n cs s → ∃ a s', p.run s = .ok (a, s') ∧ At m rest s' ∧ P a

theorem At.token {s : State} (hs : At n cs s) (h : Lexes cs kind text rest) :
    (∃ span, s.tok = ⟨kind, text, span⟩) ∧ s.cursor.rest = rest := by
  obtain ⟨-, offset, line, col, hnext⟩ := hs
  obtain ⟨span, after, hlex, hrest⟩ := h s.source offset line col
  rw [hlex] at hnext
  injection hnext with hpair
  injection hpair with htok hafter
  exact ⟨⟨span, htok.symm⟩, hafter ▸ hrest⟩

theorem At.blank {s : State} (hs : At n (' ' :: cs) s) : At n cs s := by
  obtain ⟨hn, offset, line, col, hnext⟩ := hs
  exact ⟨hn, offset + 1, line, col + 1, hnext⟩

theorem Seen.of_lexes (h : Lexes cs kind text rest) (hkind : kind ≠ .newline) : Seen n cs :=
  ⟨kind, text, rest, h, .inr hkind⟩

theorem Seen.blank (h : Seen n cs) : Seen n (' ' :: cs) := by
  obtain ⟨kind, text, rest, hlex, hkind⟩ := h
  exact ⟨kind, text, rest, hlex.blank, hkind⟩

theorem isSymbol_eq_false {span : Span} {symbol : String} (h : kind = .symbol → text ≠ symbol) :
    Token.isSymbol ⟨kind, text, span⟩ symbol = false := by
  rw [Token.isSymbol, Bool.and_eq_false_imp]
  intro hkind
  exact beq_eq_false_iff_ne.2 (h (eq_of_beq hkind))

namespace Runs

variable {P : α → Prop} {Q : β → Prop}

theorem bind {p : Parse α} {f : α → Parse β} (hp : Runs n cs p m mid P)
    (hf : ∀ a, P a → Runs m mid (f a) k rest Q) : Runs n cs (p >>= f) k rest Q := by
  intro s hs
  obtain ⟨a, s', hps, hs', ha⟩ := hp s hs
  obtain ⟨b, s'', hfs, hs'', hb⟩ := hf a ha s' hs'
  refine ⟨b, s'', ?_, hs'', hb⟩
  rw [StateT.run_bind, hps]
  exact hfs

theorem pure {a : α} (ha : P a) : Runs n cs (pure a) n cs P :=
  fun s hs => ⟨a, s, rfl, hs, ha⟩

theorem lift {r : Except SyntaxError α} {a : α} (hr : r = .ok a) (ha : P a) :
    Runs n cs (liftM r) n cs P := by
  intro s hs
  subst hr
  exact ⟨a, s, rfl, hs, ha⟩

theorem mono {p : Parse α} {R : α → Prop} (hp : Runs n cs p m rest P) (h : ∀ a, P a → R a) :
    Runs n cs p m rest R := by
  intro s hs
  obtain ⟨a, s', hps, hs', ha⟩ := hp s hs
  exact ⟨a, s', hps, hs', h a ha⟩

theorem blank {p : Parse α} (hp : Runs n cs p m rest P) : Runs n (' ' :: cs) p m rest P :=
  fun s hs => hp s hs.blank

theorem get {f : State → Parse α} (hf : ∀ s, s.nesting = n → Runs n cs (f s) m rest P) :
    Runs n cs (get >>= f) m rest P :=
  fun s hs => hf s hs.nesting s hs

theorem nest (change : Nat → Nat) :
    Runs n cs (modify fun s => { s with nesting := change s.nesting }) (change n) cs
      (fun _ => True) := by
  intro s hs
  obtain ⟨hnesting, hnext⟩ := hs
  subst hnesting
  exact ⟨(), _, rfl, ⟨rfl, hnext⟩, trivial⟩

theorem current (h : Lexes cs kind text rest) :
    Runs n cs current n cs fun tok => ∃ span, tok = ⟨kind, text, span⟩ :=
  fun s hs => ⟨s.tok, s, rfl, hs, (hs.token h).1⟩

theorem sees (h : Lexes cs kind text rest) (symbol : String) :
    Runs n cs (sees symbol) n cs (· = (kind == .symbol && text == symbol)) := by
  refine (current h).bind ?_
  rintro _ ⟨span, rfl⟩
  exact pure rfl

theorem sees_of_ne (h : Lexes cs kind text rest) {symbol : String}
    (hne : kind = .symbol → text ≠ symbol) : Runs n cs (Parser.sees symbol) n cs (· = false) := by
  refine (current h).bind ?_
  rintro _ ⟨span, rfl⟩
  exact pure (isSymbol_eq_false hne)

theorem seesWord (h : Lexes cs kind text rest) (word : String) :
    Runs n cs (seesWord word) n cs (· = (kind == .ident && text == word)) := by
  refine (current h).bind ?_
  rintro _ ⟨span, rfl⟩
  exact pure rfl

theorem peek (h : Lexes cs kind text rest) (h' : Lexes rest kind' text' rest') :
    Runs n cs peek n cs fun tok => ∃ span, tok = ⟨kind', text', span⟩ := by
  intro s hs
  have hrest : s.cursor.rest = rest := (hs.token h).2
  obtain ⟨span, after, hlex, -⟩ := h' s.source s.cursor.offset s.cursor.line s.cursor.col
  subst hrest
  refine ⟨⟨kind', text', span⟩, s, ?_, hs, span, rfl⟩
  simp only [Parser.peek, StateT.run_bind, StateT.run_get, pure_bind, StateT.run_monadLift, hlex]
  rfl

theorem advance (h : Lexes cs kind text rest) (hrest : Seen n rest) :
    Runs n cs advance n rest fun _ => True := by
  intro s hs
  obtain ⟨kind', text', rest', hlex, hkind⟩ := hrest
  have hcursor : s.cursor.rest = rest := (hs.token h).2
  subst hcursor
  obtain ⟨span, after, hlex', -⟩ := hlex s.source s.cursor.offset s.cursor.line s.cursor.col
  have hfetch : fetch s.source (decide (0 < s.nesting)) s.cursor =
      .ok (⟨kind', text', span⟩, after) := by
    rw [fetch, hlex']
    have hplain : (decide (0 < s.nesting) && kind' == .newline) = false := by
      rw [hs.nesting]
      rcases hkind with rfl | hkind
      · rfl
      · simp [hkind]
    simp only [Bind.bind, Except.bind, hplain, if_false, Bool.false_eq_true]
    rfl
  refine ⟨(), { s with tok := ⟨kind', text', span⟩, cursor := after }, ?_, ?_, trivial⟩
  · simp only [Parser.advance, StateT.run_bind, StateT.run_get, pure_bind, StateT.run_monadLift,
      hfetch]
    rfl
  · exact ⟨hs.nesting, _, _, _, hlex'⟩

theorem skipNewlines_of_ne (h : Lexes cs kind text rest) (hkind : kind ≠ .newline) :
    Runs n cs skipNewlines n cs fun _ => True := by
  intro s hs
  obtain ⟨⟨span, htok⟩, -⟩ := hs.token h
  refine ⟨(), s, ?_, hs, trivial⟩
  simp only [skipNewlines, StateT.run_bind, StateT.run_get, pure_bind, htok, hkind, if_false]
  rfl

theorem skipNewlines_of_newline (h : Lexes cs kind text rest) (hkind : kind ≠ .newline) :
    Runs n ('\n' :: cs) skipNewlines n cs fun _ => True := by
  intro s hs
  obtain ⟨⟨span, htok⟩, hcursor⟩ := hs.token (Lexes.newline cs)
  obtain ⟨span', after, hlex, -⟩ := h s.source s.cursor.offset s.cursor.line s.cursor.col
  subst hcursor
  refine ⟨(), { s with tok := ⟨kind, text, span'⟩, cursor := after }, ?_, ?_, trivial⟩
  · have hfound : significant s.source (s.cursor.rest.length + 1)
        (⟨.newline, "\n", span⟩, s.cursor) = .ok (⟨kind, text, span'⟩, after) := by
      rw [significant, if_pos rfl, hlex]
      show significant s.source s.cursor.rest.length (⟨kind, text, span'⟩, after) = _
      cases s.cursor.rest.length with
      | zero => rfl
      | succ limit => rw [significant, if_neg hkind]
    simp only [skipNewlines, StateT.run_bind, StateT.run_get, pure_bind, htok, if_true,
      StateT.run_monadLift, hfound]
    rfl
  · exact ⟨hs.nesting, _, _, _, hlex⟩

theorem skipNewlines {start : List Char} (h : Lexes cs kind text rest) (hkind : kind ≠ .newline)
    (hstart : start = cs ∨ start = '\n' :: cs) : Runs n start skipNewlines n cs fun _ => True := by
  rcases hstart with rfl | rfl
  · exact skipNewlines_of_ne h hkind
  · exact skipNewlines_of_newline h hkind

end Runs

/-- What can follow a written expression within `n` brackets. -/
inductive Stop : Nat → List Char → Prop
  | done (n : Nat) : Stop n []
  | newline (cs : List Char) : Stop 0 ('\n' :: cs)
  | comma (n : Nat) (cs : List Char) : Stop n (',' :: cs)
  | bracket (n : Nat) (cs : List Char) : Stop n (']' :: cs)
  | equals (n : Nat) (cs : List Char) : Stop n (' ' :: '=' :: ' ' :: cs)

namespace Stop

def symbols : List String := [",", "]", "="]

theorem lexes (h : Stop n tail) : ∃ kind text rest, Lexes tail kind text rest ∧
    (n = 0 ∨ kind ≠ .newline) ∧ (kind = .symbol → text ∈ symbols) := by
  cases h with
  | done => exact ⟨_, _, _, Lexes.eof, .inr (by decide), by decide⟩
  | newline cs => exact ⟨_, _, _, Lexes.newline cs, .inl rfl, by decide⟩
  | comma _ cs => exact ⟨_, _, _, Lexes.comma cs, .inr (by decide), fun _ => by decide⟩
  | bracket _ cs => exact ⟨_, _, _, Lexes.closeBracket cs, .inr (by decide), fun _ => by decide⟩
  | equals _ cs => exact ⟨_, _, _, (Lexes.equals cs).blank, .inr (by decide), fun _ => by decide⟩

theorem breaks (h : Stop n tail) : Breaks tail := by
  cases h <;> simp [Breaks, Lexer.separators]

theorem seen (h : Stop n tail) : Seen n tail := by
  obtain ⟨kind, text, rest, hlex, hn, -⟩ := h.lexes
  exact ⟨kind, text, rest, hlex, hn⟩

/-- The token that follows continues no expression. -/
theorem current (h : Stop n tail) :
    Runs n tail current n tail fun tok => ∀ symbol ∉ symbols, tok.isSymbol symbol = false := by
  obtain ⟨kind, text, rest, hlex, -, htext⟩ := h.lexes
  refine (Runs.current hlex).mono ?_
  rintro _ ⟨span, rfl⟩ symbol hsymbol
  exact isSymbol_eq_false fun hkind htok => hsymbol (htok ▸ htext hkind)

theorem sees (h : Stop n tail) {symbol : String} (hsymbol : symbol ∉ symbols) :
    Runs n tail (sees symbol) n tail (· = false) :=
  h.current.bind fun _ htok => Runs.pure (htok symbol hsymbol)

end Stop

theorem operator_text_not_mem (op : BinaryOp) : op.text ∉ Stop.symbols := by
  cases op <;> decide

section Operators

variable {fuel : Nat} {P : Expr → Prop}

theorem runs_parseOperators (h : Stop n tail) (level : List BinaryOp)
    (tighter : List (List BinaryOp)) {e : Expr} (he : P e) :
    Runs n tail (parseOperators (fuel + 1) level tighter e) n tail P := by
  rw [parseOperators]
  refine h.current.bind fun tok htok => ?_
  have hnone : (level.find? fun op => tok.isSymbol op.text) = none :=
    List.find?_eq_none.2 fun op _ => by simp [htok op.text (operator_text_not_mem op)]
  rw [hnone]
  exact Runs.pure he

theorem runs_parseBinary (h : Stop n tail) (levels : List (List BinaryOp))
    (hp : Runs n cs (parseUnary fuel) n tail P) :
    Runs n cs (parseBinary (fuel + levels.length + 1) levels) n tail P := by
  induction levels with
  | nil =>
    rw [parseBinary]
    exact hp
  | cons level tighter ih =>
    rw [parseBinary]
    exact ih.bind fun e he => runs_parseOperators h level tighter he

/-- What is parsed as an operand is an expression, if nothing that follows continues it. -/
theorem runs_parseExpr (h : Stop n tail) (hp : Runs n cs (parseUnary fuel) n tail P) :
    Runs n cs (parseExpr (fuel + 8)) n tail P := by
  rw [parseExpr]
  refine (runs_parseBinary h BinaryOp.levels hp).bind fun e he => ?_
  refine (h.sees (by decide)).bind ?_
  rintro _ rfl
  exact Runs.pure he

theorem runs_parsePostfix (h : Stop n tail) (hp : Runs n cs (parsePrimary (fuel + 1)) n tail P) :
    Runs n cs (parsePostfix (fuel + 2)) n tail P := by
  rw [parsePostfix]
  refine hp.bind fun e he => ?_
  rw [parseSteps]
  refine h.current.bind fun tok htok => ?_
  simp only [htok "." (by decide), htok "[" (by decide)]
  exact Runs.pure he

/-- An operand that starts with no sign and that nothing continues. -/
theorem runs_parseUnary (h : Stop n tail) (hlex : Lexes cs kind text rest)
    (hsign : kind = .symbol → text ∉ ["-", "!"])
    (hp : Runs n cs (parsePrimary (fuel + 1)) n tail P) :
    Runs n cs (parseUnary (fuel + 3)) n tail P := by
  rw [parseUnary]
  refine (Runs.current hlex).bind ?_
  rintro _ ⟨span, rfl⟩
  have hno : ∀ sign ∈ ["-", "!"], Token.isSymbol ⟨kind, text, span⟩ sign = false := by
    intro sign hmem
    exact isSymbol_eq_false fun hkind htext => hsign hkind (htext ▸ hmem)
  simp only [hno "-" (by simp), hno "!" (by simp)]
  exact runs_parsePostfix h hp

end Operators

end StaticConfig.Parser

/-!
Expressions as the writer of values puts them together, and what the parser makes of them. A
`Phrase` is parsed wherever something stands behind it that can follow a written expression; the
rules build phrases from phrases, like the writer does.
-/
namespace StaticConfig.Parser

open Lexer (Lexes Breaks)

/-- The first token is neither one of the symbols nor a newline nor the word `for`. -/
def Opens (symbols : List String) (cs : List Char) : Prop :=
  ∃ kind text rest, Lexes cs kind text rest ∧ kind ≠ .newline ∧
    (kind = .symbol → text ∉ symbols) ∧ (kind = .ident → text ≠ "for")

/-- The symbols that end the brackets an expression can stand in. -/
def closers : List String := ["]", "\x7d"]

/-- A text that is parsed as an expression with the property `P` wherever it stands. -/
structure Phrase (w : List Char) (P : Expr → Prop) : Prop where
  pos : 0 < w.length
  opens : ∀ {n tail}, Stop n tail → Opens closers (w ++ tail)
  runs : ∀ {fuel n tail}, 16 * w.length ≤ fuel → Stop n tail →
    Runs n (w ++ tail) (parseExpr fuel) n tail P

variable {n : Nat} {w cs rest tail : List Char} {P : Expr → Prop}

theorem Opens.mono {symbols others : List String} (h : Opens symbols cs) (hsub : others ⊆ symbols) :
    Opens others cs := by
  obtain ⟨kind, text, rest, hlex, hkind, hsymbol, hword⟩ := h
  exact ⟨kind, text, rest, hlex, hkind, fun hk hmem => hsymbol hk (hsub hmem), hword⟩

theorem Opens.sees {symbols : List String} (h : Opens symbols cs) {symbol : String}
    (hsymbol : symbol ∈ symbols) : Runs n cs (sees symbol) n cs (· = false) := by
  obtain ⟨kind, text, rest, hlex, -, hnot, -⟩ := h
  exact Runs.sees_of_ne hlex fun hk htext => hnot hk (htext ▸ hsymbol)

theorem Opens.seesFor {symbols : List String} (h : Opens symbols cs) :
    Runs n cs (seesWord "for") n cs (· = false) := by
  obtain ⟨kind, text, rest, hlex, -, -, hword⟩ := h
  refine (Runs.seesWord hlex "for").mono ?_
  rintro _ rfl
  rw [Bool.and_eq_false_imp]
  intro hkind
  exact beq_eq_false_iff_ne.2 (hword (eq_of_beq hkind))

theorem Opens.seen {symbols : List String} (h : Opens symbols cs) : Seen n cs := by
  obtain ⟨kind, text, rest, hlex, hkind, -⟩ := h
  exact Seen.of_lexes hlex hkind

/-- The parts of a template that has only text. -/
def textParts (cs : List Char) : List TemplatePart :=
  if cs.isEmpty then [] else [.text (String.ofList cs)]

theorem runs_parseTemplate {fuel offset : Nat} {ds : List Char} (h : Text.Quoted.Spells cs ds)
    (span : Span) : Runs n rest (parseTemplate (fuel + 1) span ds offset) n rest
      (· = textParts cs) := by
  have hchunk : readChunk span ds offset = .ok ⟨cs, none⟩ := Text.Quoted.readChunk_of_spells h _ _
  rw [parseTemplate]
  refine (Runs.lift hchunk (P := (· = ⟨cs, none⟩)) rfl).bind ?_
  rintro _ rfl
  exact Runs.pure rfl

namespace Phrase

theorem mono {R : Expr → Prop} (h : Phrase w P) (hPR : ∀ e, P e → R e) : Phrase w R :=
  ⟨h.pos, h.opens, fun hfuel hstop => (h.runs hfuel hstop).mono hPR⟩

/-- What is parsed as an operand without sign is a phrase. -/
theorem of_primary (hpos : 0 < w.length)
    (hopens : ∀ {n tail}, Stop n tail → Opens ("-" :: "!" :: closers) (w ++ tail))
    (hruns : ∀ {fuel n tail}, 16 * w.length ≤ fuel + 11 → Stop n tail →
      Runs n (w ++ tail) (parsePrimary (fuel + 1)) n tail P) : Phrase w P := by
  refine ⟨hpos, fun hstop => (hopens hstop).mono (by simp), fun {fuel n tail} hfuel hstop => ?_⟩
  obtain ⟨kind, text, rest, hlex, -, hsymbol, -⟩ := hopens hstop
  obtain ⟨fuel, rfl⟩ : ∃ k, fuel = k + 11 := ⟨fuel - 11, by omega⟩
  refine runs_parseExpr hstop (runs_parseUnary hstop hlex (fun hk hmem => hsymbol hk ?_) ?_)
  · exact List.mem_append_left closers hmem
  · exact hruns hfuel hstop

/-- A word that stands for a constant. -/
theorem word {name : String} {v : Value} (hv : wordValue? name = some v)
    (hname : Text.isIdentifier name) (hfor : name ≠ "for") :
    Phrase name.toList fun e => ∃ span, e = .literal span v := by
  have hpos : 0 < name.toList.length := by
    rw [List.length_pos_iff]
    rintro hnil
    simp [Text.isIdentifier, hnil] at hname
  refine of_primary hpos (fun {n tail} hstop => ?_) fun {fuel n tail} hfuel hstop => ?_
  · exact ⟨.ident, name, tail, Lexes.ident hname hstop.breaks, by decide, (fun h => by cases h),
      fun _ => hfor⟩
  · obtain ⟨fuel, rfl⟩ : ∃ k, fuel = k + 1 := ⟨fuel - 1, by omega⟩
    have hlex : Lexes (name.toList ++ tail) .ident name tail := Lexes.ident hname hstop.breaks
    rw [parsePrimary]
    refine (Runs.current hlex).bind ?_
    rintro _ ⟨span, rfl⟩
    show Runs _ _ (parseNamed (fuel + 1) _) _ _ _
    rw [parseNamed]
    refine (Runs.advance hlex hstop.seen).bind fun _ _ => ?_
    simp only [hv]
    exact Runs.pure ⟨span, rfl⟩

theorem parsePrimary_number {fuel : Nat} {ds : List Char} {x : Number} (hne : ds ≠ [])
    (hds : ∀ d ∈ ds, d.isDigit) (hx : Number.read (String.ofList ds) = .ok x) (h : Stop n tail) :
    Runs n (ds ++ tail) (parsePrimary (fuel + 1)) n tail
      fun e => ∃ span, e = .literal span (.number x) := by
  have hlex : Lexes (ds ++ tail) .number (String.ofList ds) tail := Lexes.number hne hds h.breaks
  rw [parsePrimary]
  refine (Runs.current hlex).bind ?_
  rintro _ ⟨span, rfl⟩
  simp only [hx]
  refine (Runs.advance hlex h.seen).bind fun _ _ => ?_
  exact Runs.pure ⟨span, rfl⟩

/-- The digits of a number. -/
theorem number {ds : List Char} {x : Number} (hne : ds ≠ []) (hds : ∀ d ∈ ds, d.isDigit)
    (hx : Number.read (String.ofList ds) = .ok x) :
    Phrase ds fun e => ∃ span, e = .literal span (.number x) := by
  refine of_primary (List.length_pos_iff.2 hne) (fun {n tail} hstop => ?_)
    fun _ hstop => parsePrimary_number hne hds hx hstop
  exact ⟨.number, _, tail, Lexes.number hne hds hstop.breaks, by decide, nofun, nofun⟩

/-- The digits of a number behind a sign, which is folded into the number. -/
theorem negative {ds : List Char} {x : Number} (hne : ds ≠ []) (hds : ∀ d ∈ ds, d.isDigit)
    (hx : Number.read (String.ofList ds) = .ok x) :
    Phrase ('-' :: ds) fun e => ∃ span, e = .literal span (.number x.neg) := by
  refine ⟨Nat.succ_pos _, fun {n tail} hstop => ?_, fun {fuel n tail} hfuel hstop => ?_⟩
  · exact ⟨.symbol, "-", _, Lexes.minus _, by decide, fun _ => by decide, nofun⟩
  · rw [List.length_cons] at hfuel
    obtain ⟨fuel, rfl⟩ : ∃ k, fuel = k + 12 := ⟨fuel - 12, by omega⟩
    have hdigits : Lexes (ds ++ tail) .number (String.ofList ds) tail :=
      Lexes.number hne hds hstop.breaks
    have hoperand : Runs n (ds ++ tail) (parseUnary (fuel + 3)) n tail
        fun e => ∃ span, e = .literal span (.number x) :=
      runs_parseUnary hstop hdigits nofun (parsePrimary_number hne hds hx hstop)
    refine runs_parseExpr hstop ?_
    rw [List.cons_append, parseUnary]
    refine (Runs.current (Lexes.minus _)).bind ?_
    rintro _ ⟨span, rfl⟩
    refine (Runs.advance (Lexes.minus _) (Seen.of_lexes hdigits (by decide))).bind fun _ _ => ?_
    refine hoperand.bind ?_
    rintro _ ⟨span', rfl⟩
    exact Runs.pure ⟨_, rfl⟩

/-- A template without interpolations. -/
theorem quoted {ds : List Char} (h : Text.Quoted.Spells cs ds) :
    Phrase ('"' :: (ds ++ ['"'])) fun e => ∃ span, e = .template span (textParts cs) := by
  have hlex (tail : List Char) :
      Lexes ('"' :: (ds ++ ['"']) ++ tail) .string (String.ofList ds) tail := by
    simpa using Lexes.string h tail
  refine of_primary (Nat.succ_pos _) (fun {n tail} _ => ?_) fun {fuel n tail} hfuel hstop => ?_
  · exact ⟨.string, _, tail, hlex tail, by decide, nofun, nofun⟩
  · rw [List.length_cons] at hfuel
    obtain ⟨fuel, rfl⟩ : ∃ k, fuel = k + 1 := ⟨fuel - 1, by omega⟩
    rw [parsePrimary]
    refine (Runs.current (hlex tail)).bind ?_
    rintro _ ⟨span, rfl⟩
    simp only [String.toList_ofList]
    refine (runs_parseTemplate h span).bind ?_
    rintro _ rfl
    refine (Runs.advance (hlex tail) hstop.seen).bind fun _ _ => ?_
    exact Runs.pure ⟨_, rfl⟩

end Phrase

end StaticConfig.Parser

/-!
Whole numbers are written in decimal digits, with a sign in front of those below zero. The digits
are read back as the number; the least number of 64 bits is the one whose digits without the sign
do not fit.
-/
namespace StaticConfig

namespace Text

theorem readNat_eq_ofDigitChars {cs : List Char} (h : ∀ c ∈ cs, c.isDigit) (acc : Nat) :
    readNat 10 acc cs = some (Nat.ofDigitChars 10 cs acc) := by
  induction cs generalizing acc with
  | nil => simp [readNat]
  | cons c cs ih =>
    obtain ⟨hc, hcs⟩ := List.forall_mem_cons.1 h
    have hvalue : digitValue c = c.toNat - '0'.toNat := by simp [digitValue, hc]
    have hlt : c.toNat - '0'.toNat < 10 := by
      have hle : c.toNat ≤ 57 := (Lexer.toNat_of_isDigit hc).2
      show c.toNat - 48 < 10
      omega
    rw [readNat, hvalue, if_pos hlt, ih hcs, Nat.ofDigitChars_cons]

theorem readInt_digits {cs : List Char} (hne : cs ≠ []) (h : ∀ c ∈ cs, c.isDigit) :
    readInt 10 (String.ofList cs) = some (Int.ofNat (Nat.ofDigitChars 10 cs 0)) := by
  rw [readInt, String.toList_ofList]
  split
  · exact absurd (h '-' List.mem_cons_self) (by decide)
  · exact absurd (h '+' List.mem_cons_self) (by decide)
  · have hempty : cs.isEmpty = false := by simpa using hne
    simp only [hempty, readNat_eq_ofDigitChars h]
    rfl

theorem trimBoth_eq_self {p : Char → Bool} {cs : List Char} (h : ∀ c ∈ cs, p c = false) :
    trimBoth p cs = cs := by
  have hdrop (ds : List Char) (hds : ∀ d ∈ ds, p d = false) : ds.dropWhile p = ds := by
    cases ds with
    | nil => rfl
    | cons d ds => simp [hds d List.mem_cons_self]
  rw [trimBoth, hdrop cs h, hdrop _ fun c hc => h c (List.mem_reverse.1 hc), List.reverse_reverse]

theorem isBlank_of_isDigit {c : Char} (h : c.isDigit) : isBlank c = false := by
  obtain ⟨hlow, hhigh⟩ := Lexer.toNat_of_isDigit h
  have hascii : isAscii c := decide_eq_true (by omega)
  have hspace : c ≠ ' ' := by
    rintro rfl
    exact absurd h (by decide)
  have h13 : ¬ c.toNat ≤ 13 := by omega
  simp [isBlank, hascii, hspace, h13]

theorem fitsWord_iff {i : Int} :
    fitsWord i ↔ -0x8000000000000000 ≤ i ∧ i < 0x8000000000000000 := by
  rw [fitsWord, Bool.and_eq_true, decide_eq_true_iff, decide_eq_true_iff]
  rfl

theorem fitsWord_toInt (n : Int64) : fitsWord n.toInt :=
  fitsWord_iff.2 ⟨n.le_toInt, n.toInt_lt⟩

theorem toInt_ofInt_of_fitsWord {i : Int} (h : fitsWord i) : (Int64.ofInt i).toInt = i := by
  obtain ⟨hleast, hgreatest⟩ := fitsWord_iff.1 h
  exact Int64.toInt_ofInt_of_le (by omega) (by omega)

theorem isDigit_of_mem_decimal {m : Nat} {c : Char} (h : c ∈ Nat.toDigits 10 m) : c.isDigit :=
  Nat.isDigit_of_mem_toDigits (by decide) (by decide) h

end Text

namespace Number

theorem text_of_nonneg {n : Int64} (h : 0 ≤ n.toInt) :
    text (int n) = String.ofList (Nat.toDigits 10 n.toInt.natAbs) := by
  have hsize : n.toInt.toNat = n.toInt.natAbs := by omega
  rw [text, Int.toString_eq_repr, Int.repr_eq_if, if_pos h, hsize, ← Nat.toList_repr,
    String.ofList_toList]

theorem text_of_neg {n : Int64} (h : n.toInt < 0) :
    text (int n) = String.ofList ('-' :: Nat.toDigits 10 n.toInt.natAbs) := by
  have hsize : (-n.toInt).toNat = n.toInt.natAbs := by omega
  rw [text, Int.toString_eq_repr, Int.repr_eq_if, if_neg (Int.not_le.2 h), hsize,
    ← Nat.toList_repr, String.ofList_cons, String.ofList_toList]
  rfl

theorem read_digits {m : Nat} (h : m < 0x8000000000000000) :
    read (String.ofList (Nat.toDigits 10 m)) = .ok (int (Int64.ofInt m)) := by
  have hdigits : ∀ c ∈ Nat.toDigits 10 m, c.isDigit := fun _ => Text.isDigit_of_mem_decimal
  have htrim : Text.trim (String.ofList (Nat.toDigits 10 m)) =
      String.ofList (Nat.toDigits 10 m) := by
    rw [Text.trim, String.toList_ofList,
      Text.trimBoth_eq_self fun c hc => Text.isBlank_of_isDigit (hdigits c hc)]
  have hfits : Text.fitsWord (Int.ofNat m) := by
    rw [Text.fitsWord_iff, Int.ofNat_eq_natCast]
    omega
  simp only [read, htrim, Text.readWord, Text.readInt_digits Nat.toDigits_ne_nil hdigits,
    Nat.ofDigitChars_ten_toDigits, hfits, if_true]
  rfl

theorem neg_ofNat {m : Nat} (h : m < 0x8000000000000000) :
    neg (int (Int64.ofInt m)) = int (Int64.ofInt (-m)) := by
  have hm : (Int64.ofInt m).toInt = m := Int64.toInt_ofInt_of_le (by omega) (by omega)
  have hfits : Text.fitsWord (-(m : Int)) := Text.fitsWord_iff.2 ⟨by omega, by omega⟩
  rw [neg, ofExact, hm, if_pos hfits]

end Number

namespace Parser.Phrase

/-- The text of a whole number that is not the least one. -/
theorem whole {n : Int64} (h : n ≠ Int64.minValue) :
    Phrase (Number.text (.int n)).toList fun e => ∃ span, e = .literal span (.number (.int n)) := by
  have hlow : -2 ^ 63 ≤ n.toInt := Int64.le_toInt n
  have hhigh : n.toInt < 2 ^ 63 := Int64.toInt_lt n
  have hne : n.toInt ≠ -2 ^ 63 := fun he => h (Int64.toInt_inj.1 he)
  have hread := Number.read_digits (m := n.toInt.natAbs) (by omega)
  rcases Int.lt_or_le n.toInt 0 with hneg | hpos
  · have hsize : -(n.toInt.natAbs : Int) = n.toInt := by omega
    have hphrase := negative Nat.toDigits_ne_nil (fun _ => Text.isDigit_of_mem_decimal) hread
    rw [Number.neg_ofNat (by omega), hsize, Int64.ofInt_toInt] at hphrase
    rw [Number.text_of_neg hneg, String.toList_ofList]
    exact hphrase
  · have hsize : (n.toInt.natAbs : Int) = n.toInt := by omega
    rw [hsize, Int64.ofInt_toInt] at hread
    rw [Number.text_of_nonneg hpos, String.toList_ofList]
    exact number Nat.toDigits_ne_nil (fun _ => Text.isDigit_of_mem_decimal) hread

end Parser.Phrase

end StaticConfig
