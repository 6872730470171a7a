import StaticConfig.Parser.Expr
import StaticConfig.Proofs.Except

/-!
The bound on how deeply calls of the parser nest. It decides only whether a parser gives up: what is
found within one bound is found within every larger one.
-/
namespace StaticConfig.Parser

open StaticConfig.Except

/-- Where the first parser succeeds, the second one does the same. -/
def Extends {α : Type} (p q : Parse α) : Prop :=
  ∀ s r, p.run s = .ok r → q.run s = .ok r

namespace Extends

variable {α β : Type}

theorem refl {p : Parse α} : Extends p p :=
  fun _ _ h => h

theorem trans {p q r : Parse α} (hpq : Extends p q) (hqr : Extends q r) : Extends p r :=
  fun s a h => hqr s a (hpq s a h)

theorem failHere {fault : SyntaxFault} {q : Parse α} : Extends (failHere fault) q := by
  rintro s r ⟨⟩

theorem bind {p q : Parse α} {f g : α → Parse β} (hp : Extends p q)
    (hf : ∀ a, Extends (f a) (g a)) : Extends (p >>= f) (q >>= g) := by
  intro s r h
  rw [StateT.run_bind] at h ⊢
  obtain ⟨a, ha, hr⟩ := bind_eq_ok.1 h
  rw [hp s a ha]
  exact hf a.1 a.2 r hr

/-- Both begin in the same way. -/
theorem after {p : Parse α} {f g : α → Parse β} (hf : ∀ a, Extends (f a) (g a)) :
    Extends (p >>= f) (p >>= g) :=
  refl.bind hf

theorem ite {c : Prop} [Decidable c] {p p' q q' : Parse α} (hp : Extends p p')
    (hq : Extends q q') : Extends (if c then p else q) (if c then p' else q') := by
  split
  · exact hp
  · exact hq

/-- Both go on unless something is missing. -/
theorem guarded {missing : Prop} [Decidable missing] {fault : SyntaxFault} {f g : Unit → Parse β}
    (hf : Extends (f ()) (g ())) :
    Extends (if missing then Parser.failHere fault >>= f else f ())
      (if missing then Parser.failHere fault >>= g else g ()) := by
  refine ite ?_ hf
  rintro s r ⟨⟩

/-- Both go on, after the current token if it is the wanted one. -/
theorem passing {wanted : Prop} [Decidable wanted] {f g : Unit → Parse β}
    (hf : ∀ r, Extends (f r) (g r)) :
    Extends (if wanted then Parser.advance >>= f else f ())
      (if wanted then Parser.advance >>= g else g ()) :=
  ite (after hf) (hf ())

/-- Both go on with a result that is found in one way or another, or with a fixed one. -/
theorem choosing {c : Prop} [Decidable c] {p q : Parse β} {fixed : α} {f g : α → Parse β}
    (hf : ∀ a, Extends (f a) (g a)) (hp : (∀ a, Extends (f a) (g a)) → Extends p q) :
    Extends (if c then p else pure fixed >>= f) (if c then q else pure fixed >>= g) :=
  ite (hp hf) (after hf)

end Extends

theorem extends_qualified : ∀ (limit : Nat) (name : String),
    Extends (qualified limit name) (qualified (limit + 1) name)
  | 0, _ => .failHere
  | limit + 1, name => by
    rw [qualified, qualified]
    refine .after fun _ => .ite ?_ .refl
    exact .after fun _ => .after fun _ => extends_qualified limit _

mutual

theorem extends_parseExpr : ∀ fuel : Nat, Extends (parseExpr fuel) (parseExpr (fuel + 1))
  | 0 => .failHere
  | fuel + 1 => by
    rw [parseExpr, parseExpr]
    refine (extends_parseBinary fuel _).bind fun _ => .after fun _ => .ite ?_ .refl
    refine .after fun _ => (extends_parseExpr fuel).bind fun _ => .after fun _ => ?_
    exact (extends_parseExpr fuel).bind fun _ => .refl

theorem extends_parseBinary : ∀ (fuel : Nat) (levels : List (List BinaryOp)),
    Extends (parseBinary fuel levels) (parseBinary (fuel + 1) levels)
  | 0, _ => .failHere
  | fuel + 1, [] => extends_parseUnary fuel
  | fuel + 1, level :: tighter => by
    rw [parseBinary, parseBinary]
    exact (extends_parseBinary fuel tighter).bind fun _ => extends_parseOperators fuel _ _ _

theorem extends_parseOperators : ∀ (fuel : Nat) (level : List BinaryOp)
    (tighter : List (List BinaryOp)) (lhs : Expr),
    Extends (parseOperators fuel level tighter lhs) (parseOperators (fuel + 1) level tighter lhs)
  | 0, _, _, _ => .failHere
  | fuel + 1, level, tighter, lhs => by
    rw [parseOperators, parseOperators]
    refine .after fun _ => ?_
    split
    · exact .refl
    · refine .after fun _ => (extends_parseBinary fuel tighter).bind fun _ => ?_
      exact extends_parseOperators fuel _ _ _

theorem extends_parseUnary : ∀ fuel : Nat, Extends (parseUnary fuel) (parseUnary (fuel + 1))
  | 0 => .failHere
  | fuel + 1 => by
    rw [parseUnary, parseUnary]
    refine .after fun _ => ?_
    extract_lets op?
    clear_value op?
    split
    · exact extends_parsePostfix fuel
    · exact .after fun _ => (extends_parseUnary fuel).bind fun _ => .refl

theorem extends_parsePostfix : ∀ fuel : Nat,
    Extends (parsePostfix fuel) (parsePostfix (fuel + 1))
  | 0 => .failHere
  | fuel + 1 => by
    rw [parsePostfix, parsePostfix]
    exact (extends_parsePrimary fuel).bind fun _ => extends_parseSteps fuel _

theorem extends_parseSteps : ∀ (fuel : Nat) (e : Expr),
    Extends (parseSteps fuel e) (parseSteps (fuel + 1) e)
  | 0, _ => .failHere
  | fuel + 1, e => by
    rw [parseSteps, parseSteps]
    refine .after fun mark => .ite ?_ (.ite ?_ .refl)
    · refine .after fun _ => .after fun tok => ?_
      split
      · exact .after fun _ => extends_parseSteps fuel _
      · split
        · exact .refl
        · exact .after fun _ => extends_parseSteps fuel _
      · refine .ite ?_ .refl
        refine .after fun _ => (extends_parseSplatSteps fuel true).bind fun _ => ?_
        exact extends_parseSteps fuel _
    · refine .after fun _ => .after fun _ => .after fun _ => .ite ?_ ?_
      · refine .after fun _ => .after fun _ => .after fun _ => .after fun _ => ?_
        exact (extends_parseSplatSteps fuel false).bind fun _ => extends_parseSteps fuel _
      · refine (extends_parseExpr fuel).bind fun key => ?_
        refine .after fun _ => .after fun _ => .after fun _ => ?_
        split
        · exact extends_parseSteps fuel _
        · exact extends_parseSteps fuel _

theorem extends_parseSplatSteps : ∀ (fuel : Nat) (attrsOnly : Bool),
    Extends (parseSplatSteps fuel attrsOnly) (parseSplatSteps (fuel + 1) attrsOnly)
  | 0, _ => .failHere
  | fuel + 1, attrsOnly => by
    rw [parseSplatSteps, parseSplatSteps]
    refine .after fun mark => .ite ?_ (.ite ?_ .refl)
    · refine .after fun _ => .ite ?_ .refl
      refine .after fun _ => .after fun _ => .after fun _ => ?_
      exact (extends_parseSplatSteps fuel attrsOnly).bind fun _ => .refl
    · refine .after fun _ => .after fun _ => .after fun _ => ?_
      refine (extends_parseExpr fuel).bind fun key => .after fun _ => .after fun close => ?_
      split
      · refine .ite ?_ .refl
        exact .after fun _ => (extends_parseSplatSteps fuel attrsOnly).bind fun _ => .refl
      · exact .refl

theorem extends_parsePrimary : ∀ fuel : Nat,
    Extends (parsePrimary fuel) (parsePrimary (fuel + 1))
  | 0 => .failHere
  | fuel + 1 => by
    rw [parsePrimary, parsePrimary]
    refine .after fun tok => ?_
    split
    · exact .refl
    · exact (extends_parseTemplate fuel _ _ _).bind fun _ => .refl
    · exact extends_parseNamed fuel tok
    · refine .ite ?_ (.ite (extends_parseTuple fuel _) (.ite (extends_parseObject fuel _) .refl))
      refine .after fun _ => .after fun _ => ?_
      exact (extends_parseExpr fuel).bind fun _ => .refl
    · exact .refl

theorem extends_parseNamed : ∀ (fuel : Nat) (tok : Token),
    Extends (parseNamed fuel tok) (parseNamed (fuel + 1) tok)
  | 0, _ => .failHere
  | fuel + 1, tok => by
    rw [parseNamed, parseNamed]
    refine .after fun _ => ?_
    split
    · exact .refl
    · refine (extends_qualified fuel _).bind fun _ => .after fun _ => .ite ?_ .refl
      refine .after fun _ => .after fun _ => ?_
      exact (extends_parseArgs fuel).bind fun _ => .refl

theorem extends_parseArgs : ∀ fuel : Nat, Extends (parseArgs fuel) (parseArgs (fuel + 1))
  | 0 => .failHere
  | fuel + 1 => by
    rw [parseArgs, parseArgs]
    refine .after fun _ => .ite .refl ?_
    refine (extends_parseExpr fuel).bind fun _ => .after fun _ => .ite .refl (.ite ?_ ?_)
    · exact .after fun _ => (extends_parseArgs fuel).bind fun _ => .refl
    · exact .guarded ((extends_parseArgs fuel).bind fun _ => .refl)

theorem extends_parseTuple : ∀ (fuel : Nat) (start : Span),
    Extends (parseTuple fuel start) (parseTuple (fuel + 1) start)
  | 0, _ => .failHere
  | fuel + 1, start => by
    rw [parseTuple, parseTuple]
    refine .after fun _ => .after fun _ => .after fun _ => .ite ?_ ?_
    · exact extends_parseFor fuel start false
    · exact (extends_parseItems fuel).bind fun _ => .refl

theorem extends_parseItems : ∀ fuel : Nat, Extends (parseItems fuel) (parseItems (fuel + 1))
  | 0 => .failHere
  | fuel + 1 => by
    rw [parseItems, parseItems]
    refine .after fun _ => .ite .refl ?_
    refine (extends_parseExpr fuel).bind fun _ => .after fun _ => .ite ?_ (.guarded ?_)
    · exact .after fun _ => (extends_parseItems fuel).bind fun _ => .refl
    · exact (extends_parseItems fuel).bind fun _ => .refl

theorem extends_parseObject : ∀ (fuel : Nat) (start : Span),
    Extends (parseObject fuel start) (parseObject (fuel + 1) start)
  | 0, _ => .failHere
  | fuel + 1, start => by
    rw [parseObject, parseObject]
    refine .after fun _ => .after fun _ => .after fun _ => .after fun _ => .after fun _ => ?_
    refine .choosing (fun comprehension => .ite ?_ ?_) fun hrest => .after fun _ => .after hrest
    · exact .after fun _ => extends_parseFor fuel start true
    · exact (extends_parseEntries fuel).bind fun _ => .refl

theorem extends_parseEntries : ∀ fuel : Nat,
    Extends (parseEntries fuel) (parseEntries (fuel + 1))
  | 0 => .failHere
  | fuel + 1 => by
    rw [parseEntries, parseEntries]
    refine .after fun _ => .after fun _ => .ite .refl ?_
    refine (extends_parseKey fuel).bind fun _ => .after fun _ => .ite ?_ .refl
    refine .after fun _ => (extends_parseExpr fuel).bind fun _ => .after fun _ =>
      .ite ?_ (.guarded ?_)
    · exact .after fun _ => (extends_parseEntries fuel).bind fun _ => .refl
    · exact (extends_parseEntries fuel).bind fun _ => .refl

theorem extends_parseKey : ∀ fuel : Nat, Extends (parseKey fuel) (parseKey (fuel + 1))
  | 0 => .failHere
  | fuel + 1 => by
    rw [parseKey, parseKey]
    refine .after fun _ => .choosing (fun bare => .ite .refl ?_) fun hrest =>
      .after fun _ => .after hrest
    exact (extends_parseExpr fuel).bind fun _ => .refl

theorem extends_parseFor : ∀ (fuel : Nat) (start : Span) (object : Bool),
    Extends (parseFor fuel start object) (parseFor (fuel + 1) start object)
  | 0, _, _ => .failHere
  | fuel + 1, start, object => by
    rw [parseFor, parseFor]
    refine .after fun _ => .after fun first => .after fun _ =>
      .choosing (fun second => ?_) fun hrest => .after fun _ => .after fun _ => .after hrest
    extract_lets
    refine .after fun _ => .guarded (.after fun _ => ?_)
    refine (extends_parseExpr fuel).bind fun collection => .after fun _ => ?_
    refine .choosing (fun key => ?_) fun hrest => ?_
    · refine (extends_parseExpr fuel).bind fun value => ?_
      refine .choosing (fun group => ?_) fun hrest => .after hrest
      refine .passing fun _ => .after fun _ => ?_
      refine .choosing (fun cond => .refl) fun hrest => .after fun _ => ?_
      exact (extends_parseExpr fuel).bind fun _ => .after hrest
    · exact (extends_parseExpr fuel).bind fun _ => .after fun _ => .after hrest

theorem extends_parseTemplate : ∀ (fuel : Nat) (span : Span) (cs : List Char) (offset : Nat),
    Extends (parseTemplate fuel span cs offset) (parseTemplate (fuel + 1) span cs offset)
  | 0, _, _, _ => .failHere
  | fuel + 1, span, cs, offset => by
    rw [parseTemplate, parseTemplate]
    refine .after fun chunk => ?_
    extract_lets head
    split
    · exact .refl
    · refine .after fun _ => .after fun _ => .after fun _ => ?_
      refine (extends_parseExpr fuel).bind fun _ => .after fun _ => .guarded ?_
      refine .after fun _ => .after fun _ => ?_
      exact (extends_parseTemplate fuel _ _ _).bind fun _ => .refl

end

/-- What is found within one bound is found within every larger one. -/
theorem extends_parseExpr_of_le {fuel more : Nat} (h : fuel ≤ more) :
    Extends (parseExpr fuel) (parseExpr more) := by
  induction h with
  | refl => exact .refl
  | step _ ih => exact ih.trans (extends_parseExpr _)

/-- Two bounds within which an expression is found give the same one. -/
theorem eq_of_parseExpr {fuel fuel' : Nat} {s : State} {r r' : Expr × State}
    (h : (parseExpr fuel).run s = .ok r) (h' : (parseExpr fuel').run s = .ok r') : r = r' := by
  have hmore := extends_parseExpr_of_le (Nat.le_max_left fuel fuel') s r h
  have hmore' := extends_parseExpr_of_le (Nat.le_max_right fuel fuel') s r' h'
  cases hmore.symm.trans hmore'
  rfl

end StaticConfig.Parser
