import StaticConfig.Proofs.Evaluation.Literals
import StaticConfig.Proofs.Resolution.Declared

/-!
What a parser keeps. Its states change only as it goes on to further tokens, so a property of
states that lasts when this happens holds when the parser is done. And the literals of the
expressions that it finds are numbers, texts, truth values and null, so what holds of all of these
holds of what is written in a file.
-/
namespace StaticConfig.Parser

open StaticConfig.Except

/-- From a state of the first kind the parser, if it succeeds, comes to a result with the property
and to a state of the second kind. -/
def Leads {α : Type} (I : State → Prop) (p : Parse α) (P : α → Prop) (J : State → Prop) : Prop :=
  Yields I p fun a s => P a ∧ J s

/-- Of a result about which nothing is known. -/
def Some {α : Type} (_ : α) : Prop := True

namespace Leads

variable {α β : Type} {I J K : State → Prop} {P : α → Prop} {Q : β → Prop}

theorem bind {p : Parse α} {f : α → Parse β} (hp : Leads I p P J)
    (hf : ∀ a, P a → Leads J (f a) Q K) : Leads I (p >>= f) Q K :=
  Yields.bind hp fun a => Yields.assume (fun _ h => h.1) fun ha => (hf a ha).weaken fun _ h => h.2

theorem weaken {p : Parse α} (hp : Leads I p P K) (h : ∀ s, J s → I s) : Leads J p P K :=
  Yields.weaken hp h

theorem pure {a : α} (h : P a) : Leads I (pure a) P I :=
  Yields.pure fun _ hs => ⟨h, hs⟩

theorem fail {span : Span} {fault : SyntaxFault} : Leads I (fail (α := α) span fault) P J :=
  Yields.fail

theorem failHere {fault : SyntaxFault} : Leads I (failHere (α := α) fault) P J :=
  Yields.failHere

theorem get : Leads I get I I := by
  rintro s hs _ ⟨⟩
  exact ⟨hs, hs⟩

theorem set {s : State} (h : J s) : Leads I (set s) Some J := by
  rintro s' hs' _ ⟨⟩
  exact ⟨trivial, h⟩

theorem modify {f : State → State} (h : ∀ s, I s → J (f s)) : Leads I (modify f) Some J := by
  rintro s hs _ ⟨⟩
  exact ⟨trivial, h s hs⟩

theorem lift {r : Except SyntaxError α} (h : Ensures P r) : Leads I (liftM r) P I :=
  Yields.lift h

/-- The parser looks at the state and leaves it as it is. -/
theorem current : Leads I current Some I := by
  rintro s hs _ ⟨⟩
  exact ⟨trivial, hs⟩

theorem sees (symbol : String) : Leads I (sees symbol) Some I := by
  rintro s hs _ ⟨⟩
  exact ⟨trivial, hs⟩

theorem seesWord (word : String) : Leads I (seesWord word) Some I := by
  rintro s hs _ ⟨⟩
  exact ⟨trivial, hs⟩

theorem peek : Leads I peek Some I := by
  refine get.bind fun s _ => ?_
  exact (lift fun _ _ => trivial).bind fun r _ => pure trivial

/-- The parser goes on unless something is missing. -/
theorem guarded {missing : Bool} {fault : SyntaxFault} {rest : Unit → Parse α}
    (h : ∀ r, Leads I (rest r) P J) :
    Leads I (if missing = true then Parser.failHere fault >>= rest else rest ()) P J := by
  split
  · exact failHere.bind (P := Some) fun r _ => h r
  · exact h ()

/-- The parser goes on with a result that it finds in one way or another, or with a fixed one. -/
theorem choosing {c : Prop} [Decidable c] {p : Parse α} {fixed : β} {rest : β → Parse α}
    (h : ∀ b, Q b → Leads I (rest b) P J) (hfixed : Q fixed)
    (hp : (∀ b, Q b → Leads I (rest b) P J) → Leads I p P J) :
    Leads I (if c then p else Pure.pure fixed >>= rest) P J := by
  split
  · exact hp h
  · exact h fixed hfixed

end Leads

/-- The property of states lasts when further tokens are fetched, and has nothing to do with the
nesting of brackets. -/
structure Lasts (I : State → Prop) : Prop where
  fetched {s : State} {nested : Bool} {tok : Token} {cursor : Cursor} : I s →
    fetch s.source nested s.cursor = .ok (tok, cursor) → I { s with tok := tok, cursor := cursor }
  skipped {s : State} {limit : Nat} {tok : Token} {cursor : Cursor} : I s →
    significant s.source limit (s.tok, s.cursor) = .ok (tok, cursor) →
      I { s with tok := tok, cursor := cursor }
  nested {s : State} (nesting : Nat) : I s → I { s with nesting := nesting }

theorem lasts_true : Lasts fun _ => True :=
  ⟨fun _ _ => trivial, fun _ _ => trivial, fun _ _ => trivial⟩

namespace Lasts

variable {I : State → Prop} (hI : Lasts I)

include hI

theorem advance : Leads I advance Some I := by
  refine Yields.get.bind fun s => ?_
  refine (Yields.lift (P := fun r => fetch s.source (decide (0 < s.nesting)) s.cursor = .ok r)
    fun _ h => h).bind ?_
  rintro ⟨tok, cursor⟩ _ ⟨hfetch, rfl, hs⟩ _ ⟨⟩
  exact ⟨trivial, hI.fetched hs hfetch⟩

theorem skipNewlines : Leads I skipNewlines Some I := by
  refine Yields.get.bind fun s => ?_
  split
  · refine (Yields.lift (P := fun r => significant s.source (s.cursor.rest.length + 1)
      (s.tok, s.cursor) = .ok r) fun _ h => h).bind ?_
    rintro ⟨tok, cursor⟩ _ ⟨hfound, rfl, hs⟩ _ ⟨⟩
    exact ⟨trivial, hI.skipped hs hfound⟩
  · exact Yields.pure fun _ h => ⟨trivial, h.2⟩

theorem endItem (closed : Bool) : Leads I (endItem closed) Some I := by
  rw [Parser.endItem]
  refine Leads.current.bind fun tok _ => ?_
  split
  · exact hI.advance
  · exact Leads.pure trivial
  · split
    · exact Leads.pure trivial
    · exact Leads.failHere

theorem enter : Leads I enter Some I :=
  Leads.modify fun _ hs => hI.nested _ hs

theorem leave : Leads I leave Some I :=
  Leads.modify fun _ hs => hI.nested _ hs

theorem expect (symbol : String) (place : Expectation) :
    Leads I (expect symbol place) Some I := by
  refine (Leads.sees symbol).bind fun found _ => ?_
  split
  · exact hI.advance
  · exact Leads.failHere

theorem expectName (fault : SyntaxFault) : Leads I (expectName fault) Some I := by
  refine Leads.current.bind fun tok _ => ?_
  split
  · exact hI.advance.bind fun _ _ => Leads.pure trivial
  · exact Leads.failHere

theorem qualified (limit : Nat) (name : String) : Leads I (qualified limit name) Some I := by
  induction limit generalizing name with
  | zero => exact Leads.failHere
  | succ limit ih =>
    rw [Parser.qualified]
    refine (Leads.sees "::").bind fun found _ => ?_
    split
    · refine hI.advance.bind fun _ _ => ?_
      exact (hI.expectName _).bind fun part _ => ih _
    · exact Leads.pure trivial

variable {α : Type} {P : α → Prop} {rest : Unit → Parse α}

/-- The parser passes the token if it is the wanted one, and goes on in any case. -/
theorem passing {wanted : Bool} (h : ∀ r, Leads I (rest r) P I) :
    Leads I (if wanted = true then Parser.advance >>= rest else rest ()) P I := by
  split
  · exact hI.advance.bind fun r _ => h r
  · exact h ()

/-- The parser passes a separator, or goes on at the end, or fails. -/
theorem separated {separator missing : Bool} {fault : SyntaxFault} (h : ∀ r, Leads I (rest r) P I) :
    Leads I (if separator = true then Parser.advance >>= rest
      else if missing = true then failHere fault >>= rest else rest ()) P I := by
  split
  · exact hI.advance.bind fun r _ => h r
  · exact Leads.guarded h

end Lasts

open Value (Hereditary)
open StaticConfig.Expr (Writes TemplateWrites KeyWrites)

variable {P : Value → Prop}

/-- A constant that stands for a word has the property. -/
theorem of_wordValue? (H : Hereditary P) {word : String} {v : Value}
    (h : wordValue? word = some v) : P v := by
  unfold wordValue? at h
  split at h
  · cases h
    exact H.bool true
  split at h
  · cases h
    exact H.bool false
  split at h
  · cases h
    exact H.null _
  · cases h

theorem writes_negated (H : Hereditary P) {span : Span} {op : UnaryOp} {e : Expr}
    (h : e.Writes P) :
    (negated span op e).Writes P := by
  unfold negated
  split
  · exact Expr.writes_literal.2 (H.number _)
  · exact Expr.writes_unary.2 h

theorem writes_splat {e : Expr} {mark : Span} {each : List Step} (h : e.Writes P)
    (heach : ∀ s ∈ each, s.Writes P) : (splat e mark each).Writes P :=
  Expr.writes_splat.2 ⟨h, heach⟩

mutual

theorem leads_parseExpr {I : State → Prop} (H : Hereditary P) (hI : Lasts I) : ∀ fuel : Nat,
    Leads I (parseExpr fuel) (Writes P) I
  | 0 => Leads.failHere
  | fuel + 1 => by
    rw [parseExpr]
    refine (leads_parseBinary H hI fuel BinaryOp.levels).bind fun cond hcond => ?_
    refine (Leads.sees "?").bind fun found _ => ?_
    split
    · refine hI.advance.bind fun _ _ => ?_
      refine (leads_parseExpr H hI fuel).bind fun yes hyes => ?_
      refine (hI.expect _ _).bind fun _ _ => ?_
      refine (leads_parseExpr H hI fuel).bind fun no hno => ?_
      exact Leads.pure (Expr.writes_conditional.2 ⟨hcond, hyes, hno⟩)
    · exact Leads.pure hcond

theorem leads_parseBinary {I : State → Prop} (H : Hereditary P) (hI : Lasts I) :
    ∀ (fuel : Nat) (levels : List (List BinaryOp)),
      Leads I (parseBinary fuel levels) (Writes P) I
  | 0, _ => Leads.failHere
  | fuel + 1, [] => leads_parseUnary H hI fuel
  | fuel + 1, level :: tighter => by
    rw [parseBinary]
    exact (leads_parseBinary H hI fuel tighter).bind fun lhs hlhs =>
      leads_parseOperators H hI fuel level tighter lhs hlhs

theorem leads_parseOperators {I : State → Prop} (H : Hereditary P) (hI : Lasts I) :
    ∀ (fuel : Nat) (level : List BinaryOp) (tighter : List (List BinaryOp)) (lhs : Expr),
      lhs.Writes P → Leads I (parseOperators fuel level tighter lhs) (Writes P) I
  | 0, _, _, _, _ => Leads.failHere
  | fuel + 1, level, tighter, lhs, hlhs => by
    rw [parseOperators]
    refine Leads.current.bind fun tok _ => ?_
    split
    · exact Leads.pure hlhs
    · refine hI.advance.bind fun _ _ => ?_
      refine (leads_parseBinary H hI fuel tighter).bind fun rhs hrhs => ?_
      exact leads_parseOperators H hI fuel level tighter _
        (Expr.writes_binary.2 ⟨hlhs, hrhs⟩)

theorem leads_parseUnary {I : State → Prop} (H : Hereditary P) (hI : Lasts I) : ∀ fuel : Nat,
    Leads I (parseUnary fuel) (Writes P) I
  | 0 => Leads.failHere
  | fuel + 1 => by
    rw [parseUnary]
    refine Leads.current.bind fun tok _ => ?_
    extract_lets op?
    cases op? with
    | none => exact leads_parsePostfix H hI fuel
    | some op =>
      refine hI.advance.bind fun _ _ => ?_
      refine (leads_parseUnary H hI fuel).bind fun e he => ?_
      exact Leads.pure (writes_negated H he)

theorem leads_parsePostfix {I : State → Prop} (H : Hereditary P) (hI : Lasts I) : ∀ fuel : Nat,
    Leads I (parsePostfix fuel) (Writes P) I
  | 0 => Leads.failHere
  | fuel + 1 => by
    rw [parsePostfix]
    exact (leads_parsePrimary H hI fuel).bind fun e he => leads_parseSteps H hI fuel e he

theorem leads_parseSteps {I : State → Prop} (H : Hereditary P) (hI : Lasts I) :
    ∀ (fuel : Nat) (e : Expr), e.Writes P → Leads I (parseSteps fuel e) (Writes P) I
  | 0, _, _ => Leads.failHere
  | fuel + 1, e, he => by
    rw [parseSteps]
    refine Leads.current.bind fun mark _ => ?_
    split
    · refine hI.advance.bind fun _ _ => Leads.current.bind fun tok _ => ?_
      split
      · refine hI.advance.bind fun _ _ => ?_
        exact leads_parseSteps H hI fuel _ (he.follow trivial)
      · split
        · exact Leads.failHere
        · refine hI.advance.bind fun _ _ => ?_
          exact leads_parseSteps H hI fuel _ (he.follow (H.number _))
      · split
        · refine hI.advance.bind fun _ _ => ?_
          refine (leads_parseSplatSteps H hI fuel true).bind fun each heach => ?_
          exact leads_parseSteps H hI fuel _ (writes_splat he heach)
        · exact Leads.failHere
    · split
      · refine hI.enter.bind fun _ _ => hI.advance.bind fun _ _ => ?_
        refine (Leads.sees "*").bind fun found _ => ?_
        split
        · refine hI.advance.bind fun _ _ => hI.leave.bind fun _ _ => ?_
          refine Leads.current.bind fun close _ => (hI.expect _ _).bind fun _ _ => ?_
          refine (leads_parseSplatSteps H hI fuel false).bind fun each heach => ?_
          exact leads_parseSteps H hI fuel _ (writes_splat he heach)
        · refine (leads_parseExpr H hI fuel).bind fun key hkey => hI.leave.bind fun _ _ => ?_
          refine Leads.current.bind fun close _ => (hI.expect _ _).bind fun _ _ => ?_
          split
          · next v hv =>
            exact leads_parseSteps H hI fuel _ (he.follow (hkey.literal? H hv))
          · exact leads_parseSteps H hI fuel _ (Expr.writes_index.2 ⟨he, hkey⟩)
      · exact Leads.pure he

theorem leads_parseSplatSteps {I : State → Prop} (H : Hereditary P) (hI : Lasts I) :
    ∀ (fuel : Nat) (attrsOnly : Bool),
      Leads I (parseSplatSteps fuel attrsOnly) (fun each => ∀ s ∈ each, s.Writes P) I
  | 0, _ => Leads.failHere
  | fuel + 1, attrsOnly => by
    rw [parseSplatSteps]
    refine Leads.current.bind fun mark _ => ?_
    split
    · refine Leads.peek.bind fun ahead _ => ?_
      split
      · refine hI.advance.bind fun _ _ => Leads.current.bind fun name _ => ?_
        refine hI.advance.bind fun _ _ => ?_
        refine (leads_parseSplatSteps H hI fuel attrsOnly).bind fun rest hrest => ?_
        exact Leads.pure (List.forall_mem_cons.2 ⟨trivial, hrest⟩)
      · exact Leads.pure nofun
    · split
      · refine Leads.get.bind fun saved hsaved => ?_
        refine hI.enter.bind fun _ _ => hI.advance.bind fun _ _ => ?_
        refine (leads_parseExpr H hI fuel).bind fun key hkey => hI.leave.bind fun _ _ => ?_
        refine Leads.current.bind fun close _ => ?_
        have hback :
            Leads I (do set saved; pure []) (fun each => ∀ s ∈ each, Step.Writes P s) I :=
          (Leads.set hsaved).bind fun _ _ => Leads.pure nofun
        split
        · next v hv =>
          split
          · refine hI.advance.bind fun _ _ => ?_
            refine (leads_parseSplatSteps H hI fuel attrsOnly).bind fun rest hrest => ?_
            exact Leads.pure (List.forall_mem_cons.2 ⟨hkey.literal? H hv, hrest⟩)
          · exact hback
        · exact hback
      · exact Leads.pure nofun

theorem leads_parsePrimary {I : State → Prop} (H : Hereditary P) (hI : Lasts I) : ∀ fuel : Nat,
    Leads I (parsePrimary fuel) (Writes P) I
  | 0 => Leads.failHere
  | fuel + 1 => by
    rw [parsePrimary]
    refine Leads.current.bind fun tok _ => ?_
    split
    · split
      · refine hI.advance.bind fun _ _ => ?_
        exact Leads.pure (Expr.writes_literal.2 (H.number _))
      · exact Leads.failHere
    · refine (leads_parseTemplate H hI fuel tok.span _ _).bind fun parts hparts => ?_
      refine hI.advance.bind fun _ _ => ?_
      exact Leads.pure (Expr.writes_template.2 hparts)
    · exact leads_parseNamed H hI fuel tok
    · split
      · refine hI.enter.bind fun _ _ => hI.advance.bind fun _ _ => ?_
        refine (leads_parseExpr H hI fuel).bind fun e he => hI.leave.bind fun _ _ => ?_
        refine Leads.current.bind fun close _ => (hI.expect _ _).bind fun _ _ => ?_
        exact Leads.pure (Expr.writes_parens.2 he)
      · split
        · exact leads_parseTuple H hI fuel tok.span
        · split
          · exact leads_parseObject H hI fuel tok.span
          · exact Leads.failHere
    · exact Leads.failHere

theorem leads_parseNamed {I : State → Prop} (H : Hereditary P) (hI : Lasts I) :
    ∀ (fuel : Nat) (tok : Token), Leads I (parseNamed fuel tok) (Writes P) I
  | 0, _ => Leads.failHere
  | fuel + 1, tok => by
    rw [parseNamed]
    refine hI.advance.bind fun _ _ => ?_
    split
    · next v hv =>
      exact Leads.pure (Expr.writes_literal.2 (of_wordValue? H hv))
    · refine (hI.qualified fuel tok.text).bind fun name _ => ?_
      refine (Leads.sees "(").bind fun found _ => ?_
      split
      · refine hI.enter.bind fun _ _ => hI.advance.bind fun _ _ => ?_
        refine (leads_parseArgs H hI fuel).bind fun args hargs => hI.leave.bind fun _ _ => ?_
        refine Leads.current.bind fun close _ => hI.advance.bind fun _ _ => ?_
        exact Leads.pure (Expr.writes_call.2 hargs)
      · split
        · exact Leads.fail
        · exact Leads.pure (Expr.writes_traversal.2 nofun)

theorem leads_parseArgs {I : State → Prop} (H : Hereditary P) (hI : Lasts I) : ∀ fuel : Nat,
    Leads I (parseArgs fuel) (fun r => ∀ e ∈ r.1, e.Writes P) I
  | 0 => Leads.failHere
  | fuel + 1 => by
    rw [parseArgs]
    refine (Leads.sees ")").bind fun found _ => ?_
    split
    · exact Leads.pure nofun
    · refine (leads_parseExpr H hI fuel).bind fun arg harg => ?_
      refine Leads.current.bind fun tok _ => ?_
      split
      · refine hI.advance.bind fun _ _ => (Leads.sees ",").bind fun comma _ => ?_
        refine hI.passing fun _ => (Leads.sees ")").bind fun closes _ => ?_
        split
        · exact Leads.pure (List.forall_mem_singleton.2 harg)
        · exact Leads.failHere
      · refine hI.separated fun _ => ?_
        refine (leads_parseArgs H hI fuel).bind fun args hargs => ?_
        exact Leads.pure (List.forall_mem_cons.2 ⟨harg, hargs⟩)

theorem leads_parseTuple {I : State → Prop} (H : Hereditary P) (hI : Lasts I) :
    ∀ (fuel : Nat) (opening : Span), Leads I (parseTuple fuel opening) (Writes P) I
  | 0, _ => Leads.failHere
  | fuel + 1, opening => by
    rw [parseTuple]
    refine hI.enter.bind fun _ _ => hI.advance.bind fun _ _ => ?_
    refine (Leads.seesWord "for").bind fun found _ => ?_
    split
    · exact leads_parseFor H hI fuel opening false
    · refine (leads_parseItems H hI fuel).bind fun items hitems => hI.leave.bind fun _ _ => ?_
      refine Leads.current.bind fun close _ => hI.advance.bind fun _ _ => ?_
      exact Leads.pure (Expr.writes_tuple.2 hitems)

theorem leads_parseItems {I : State → Prop} (H : Hereditary P) (hI : Lasts I) : ∀ fuel : Nat,
    Leads I (parseItems fuel) (fun items => ∀ e ∈ items, e.Writes P) I
  | 0 => Leads.failHere
  | fuel + 1 => by
    rw [parseItems]
    refine (Leads.sees "]").bind fun found _ => ?_
    split
    · exact Leads.pure nofun
    · refine (leads_parseExpr H hI fuel).bind fun item hitem => ?_
      refine Leads.current.bind fun tok _ => hI.separated fun _ => ?_
      refine (leads_parseItems H hI fuel).bind fun items hitems => ?_
      exact Leads.pure (List.forall_mem_cons.2 ⟨hitem, hitems⟩)

theorem leads_parseObject {I : State → Prop} (H : Hereditary P) (hI : Lasts I) :
    ∀ (fuel : Nat) (opening : Span), Leads I (parseObject fuel opening) (Writes P) I
  | 0, _ => Leads.failHere
  | fuel + 1, opening => by
    rw [parseObject]
    refine Leads.get.bind fun s _ => ?_
    refine (Leads.modify fun _ hs => hI.nested 0 hs).bind fun _ _ => ?_
    refine hI.advance.bind fun _ _ => hI.skipNewlines.bind fun _ _ => ?_
    refine (Leads.seesWord "for").bind fun found _ => ?_
    refine Leads.choosing (Q := Some) (fun comprehension _ => ?_) trivial fun hrest =>
      Leads.peek.bind fun ahead _ => hrest _ trivial
    beta_reduce
    split
    · refine (Leads.modify fun _ hs => hI.nested _ hs).bind fun _ _ => ?_
      exact leads_parseFor H hI fuel opening true
    · refine (leads_parseEntries H hI fuel).bind fun items hitems => ?_
      refine (Leads.modify fun _ hs => hI.nested _ hs).bind fun _ _ => ?_
      refine Leads.current.bind fun close _ => hI.advance.bind fun _ _ => ?_
      exact Leads.pure (Expr.writes_object.2 hitems)

theorem leads_parseEntries {I : State → Prop} (H : Hereditary P) (hI : Lasts I) : ∀ fuel : Nat,
    Leads I (parseEntries fuel)
      (fun items => ∀ item ∈ items, KeyWrites P item.1 ∧ item.2.Writes P) I
  | 0 => Leads.failHere
  | fuel + 1 => by
    rw [parseEntries]
    refine hI.skipNewlines.bind fun _ _ => (Leads.sees "\x7d").bind fun found _ => ?_
    split
    · exact Leads.pure nofun
    · refine (leads_parseKey H hI fuel).bind fun key hkey => Leads.current.bind fun tok _ => ?_
      split
      · refine hI.advance.bind fun _ _ => ?_
        refine (leads_parseExpr H hI fuel).bind fun value hvalue => ?_
        refine Leads.current.bind fun tok _ => hI.separated fun _ => ?_
        refine (leads_parseEntries H hI fuel).bind fun entries hentries => ?_
        exact Leads.pure (List.forall_mem_cons.2 ⟨⟨hkey, hvalue⟩, hentries⟩)
      · exact Leads.failHere

theorem leads_parseKey {I : State → Prop} (H : Hereditary P) (hI : Lasts I) : ∀ fuel : Nat,
    Leads I (parseKey fuel) (KeyWrites P) I
  | 0 => Leads.failHere
  | fuel + 1 => by
    rw [parseKey]
    refine Leads.current.bind fun tok _ => ?_
    refine Leads.choosing (Q := Some) (fun bare _ => ?_) trivial fun hrest =>
      Leads.peek.bind fun ahead _ => hrest _ trivial
    beta_reduce
    split
    · refine hI.advance.bind fun _ _ => ?_
      exact Leads.pure nofun
    · refine (leads_parseExpr H hI fuel).bind fun e he => Leads.pure ?_
      rintro _ ⟨⟩
      exact he

theorem leads_parseFor {I : State → Prop} (H : Hereditary P) (hI : Lasts I) :
    ∀ (fuel : Nat) (opening : Span) (object : Bool),
      Leads I (parseFor fuel opening object) (Writes P) I
  | 0, _, _ => Leads.failHere
  | fuel + 1, opening, object => by
    rw [parseFor]
    refine hI.advance.bind fun _ _ => (hI.expectName _).bind fun first _ => ?_
    refine (Leads.sees ",").bind fun comma _ => ?_
    refine Leads.choosing (Q := Some) (fun second _ => ?_) trivial fun hrest =>
      hI.advance.bind fun _ _ => (hI.expectName _).bind fun name _ => hrest _ trivial
    refine (Leads.seesWord "in").bind fun found _ => Leads.guarded fun _ => ?_
    refine hI.advance.bind fun _ _ => ?_
    refine (leads_parseExpr H hI fuel).bind fun collection hcollection => ?_
    refine (hI.expect _ _).bind fun _ _ => ?_
    refine Leads.choosing (Q := fun key => ∀ e ∈ key, e.Writes P) (fun key hkey => ?_) nofun
      fun hrest => (leads_parseExpr H hI fuel).bind fun e he => (hI.expect _ _).bind fun _ _ =>
        hrest (some e) (by simpa using he)
    refine (leads_parseExpr H hI fuel).bind fun value hvalue => ?_
    refine Leads.choosing (Q := Some) (fun group _ => ?_) trivial fun hrest =>
      (Leads.sees "...").bind hrest
    refine hI.passing fun _ => (Leads.seesWord "if").bind fun filtered _ => ?_
    refine Leads.choosing (Q := fun cond => ∀ e ∈ cond, e.Writes P) (fun cond hcond => ?_)
      nofun fun hrest => hI.advance.bind fun _ _ => (leads_parseExpr H hI fuel).bind fun e he =>
        hrest (some e) (by simpa using he)
    refine hI.leave.bind fun _ _ => Leads.current.bind fun close _ => ?_
    refine (hI.expect _ _).bind fun _ _ => ?_
    exact Leads.pure (Expr.writes_forEach.2 ⟨hcollection, hkey, hvalue, hcond⟩)

theorem leads_parseTemplate {I : State → Prop} (H : Hereditary P) (hI : Lasts I) :
    ∀ (fuel : Nat) (span : Span) (cs : List Char) (offset : Nat),
      Leads I (parseTemplate fuel span cs offset) (TemplateWrites P) I
  | 0, _, _, _ => Leads.failHere
  | fuel + 1, span, cs, offset => by
    rw [parseTemplate]
    refine (Leads.lift fun _ _ => trivial).bind fun chunk (_ : Some chunk) => ?_
    extract_lets head
    have hhead : TemplateWrites P head := by
      intro e he
      unfold head at he
      split at he
      · cases he
      · cases List.mem_singleton.1 he
    clear_value head
    split
    · exact Leads.pure hhead
    · next rest offset _ =>
      refine Leads.get.bind fun saved hsaved => ?_
      refine (Leads.lift fun _ _ => trivial).bind fun inside (_ : Some inside) => ?_
      refine (Leads.set (J := fun _ => True) trivial).bind fun _ _ => ?_
      refine (leads_parseExpr H lasts_true fuel).bind fun e he => ?_
      refine (Leads.sees "\x7d").bind fun found _ => Leads.guarded fun _ => ?_
      refine Leads.get.bind fun inner _ => (Leads.set hsaved).bind fun _ _ => ?_
      refine (leads_parseTemplate H hI fuel span _ _).bind fun tail htail => ?_
      refine Leads.pure fun e' he' => ?_
      rcases List.mem_append.1 he' with hmem | hmem
      · exact hhead e' hmem
      · rcases List.mem_cons.1 hmem with hsame | hmem
        · cases hsame
          exact he
        · exact htail e' hmem

end

theorem leads_parseLabels {I : State → Prop} (H : Hereditary P) (hI : Lasts I) (fuel : Nat) :
    Leads I (parseLabels fuel) Some I := by
  induction fuel with
  | zero => exact Leads.failHere
  | succ fuel ih =>
    rw [parseLabels]
    refine Leads.current.bind fun tok _ => ?_
    split
    · exact hI.advance.bind fun _ _ => ih.bind fun rest _ => Leads.pure trivial
    · refine (leads_parseTemplate H hI fuel _ _ _).bind fun parts _ => ?_
      split
      · exact Leads.failHere
      · exact hI.advance.bind fun _ _ => ih.bind fun rest _ => Leads.pure trivial
    · exact Leads.pure trivial

/-- All values that are written in the expressions of the attributes have the property. -/
def AttributesWrite (P : Value → Prop) (attributes : Fields Attribute) : Prop :=
  ∀ e ∈ attributes, e.2.expr.Writes P

/-- All values that are written in the body have the property, in the blocks inside it too. -/
inductive BodyWrites (P : Value → Prop) : Body → Prop
  | intro {b : Body} : AttributesWrite P b.attributes →
      (∀ block ∈ b.blocks, BodyWrites P block.body) → BodyWrites P b

theorem BodyWrites.of_attribute? {b : Body} {name : String} {a : Attribute}
    (h : BodyWrites P b) (ha : b.attribute? name = some a) : a.expr.Writes P := by
  obtain ⟨hattributes, -⟩ := h
  exact hattributes _ (Fields.mem_of_get? ha)

/-- A body that nothing opened is parsed up to the end token. -/
def Closed (I : State → Prop) (nested : Bool) (s : State) : Prop :=
  I s ∧ (nested = false → s.tok.kind = .eof)

mutual

theorem leads_parseBody {I : State → Prop} (H : Hereditary P) (hI : Lasts I) :
    ∀ (fuel : Nat) (opening : Option Span),
      Leads I (parseBody fuel opening) (BodyWrites P) (Closed I opening.isSome)
  | 0, _ => Leads.failHere
  | fuel + 1, opening => by
    rw [parseBody]
    refine (leads_parseDefinitions H hI fuel opening.isSome [] nofun).bind ?_
    rintro ⟨attributes, blocks⟩ ⟨hattributes, hblocks⟩
    exact Leads.get.bind fun s _ => Leads.pure (.intro hattributes hblocks)

theorem leads_parseDefinitions {I : State → Prop} (H : Hereditary P) (hI : Lasts I) :
    ∀ (fuel : Nat) (nested : Bool) (prior : Fields Attribute), AttributesWrite P prior →
      Leads I (parseDefinitions fuel nested prior)
        (fun r => AttributesWrite P r.1 ∧ ∀ block ∈ r.2, BodyWrites P block.body)
        (Closed I nested)
  | 0, _, _, _ => Leads.failHere
  | fuel + 1, nested, prior, hprior => by
    rw [parseDefinitions]
    refine hI.skipNewlines.bind fun _ _ => Yields.current.bind fun name => ?_
    split
    · next hend =>
      split
      · exact Leads.failHere
      · exact Yields.pure fun s hs => ⟨⟨hprior, nofun⟩, hs.2, fun _ => hs.1 ▸ hend⟩
    · split
      · next hclosing =>
        have hnested : nested = true := (Bool.and_eq_true_iff.1 hclosing).1
        exact Yields.pure fun s hs =>
          ⟨⟨hprior, nofun⟩, hs.2, fun h => by rw [hnested] at h; cases h⟩
      · split
        · exact Leads.failHere
        · refine Leads.weaken (I := I) ?_ fun s hs => hs.2
          refine hI.advance.bind fun _ _ => (Leads.sees "=").bind fun found _ => ?_
          split
          · refine hI.advance.bind fun _ _ => (leads_parseExpr H hI fuel).bind fun e he => ?_
            refine (hI.endItem nested).bind fun _ _ => ?_
            split
            · exact Leads.fail
            · refine leads_parseDefinitions H hI fuel nested _ fun entry hentry => ?_
              rcases Fields.mem_insert hentry with rfl | hentry
              · exact he
              · exact hprior entry hentry
          · refine (leads_parseBlock H hI fuel nested name).bind fun block hblock => ?_
            refine (leads_parseDefinitions H hI fuel nested prior hprior).bind ?_
            rintro ⟨attributes, blocks⟩ ⟨hattributes, hblocks⟩
            exact Leads.pure ⟨hattributes, List.forall_mem_cons.2 ⟨hblock, hblocks⟩⟩

theorem leads_parseBlock {I : State → Prop} (H : Hereditary P) (hI : Lasts I) :
    ∀ (fuel : Nat) (nested : Bool) (type : Token),
      Leads I (parseBlock fuel nested type) (fun block => BodyWrites P block.body) I
  | 0, _, _ => Leads.failHere
  | fuel + 1, nested, type => by
    rw [parseBlock]
    refine (leads_parseLabels H hI fuel).bind fun labels _ => ?_
    extract_lets definition
    refine Leads.current.bind fun opening _ => (hI.expect _ _).bind fun _ _ => ?_
    refine (leads_parseBody H hI fuel (some opening.span)).bind fun body hbody => ?_
    refine Leads.weaken (I := I) ?_ fun s hs => hs.1
    refine Leads.current.bind fun close _ => hI.advance.bind fun _ _ => ?_
    exact (hI.endItem nested).bind fun _ _ => Leads.pure hbody

end

/-- What holds of all constants of the language holds of all values that are written in a file. -/
theorem bodyWrites_of_file (H : Hereditary P) {source : Source} {body : Body}
    (h : file source = .ok body) : BodyWrites P body := by
  obtain ⟨s, -, hrun⟩ := bind_eq_ok.1 h
  obtain ⟨⟨_, last⟩, hbody, rfl⟩ := map_eq_ok.1 hrun
  exact (leads_parseBody H lasts_true (depthBound source) none s trivial _ hbody).1

end StaticConfig.Parser
