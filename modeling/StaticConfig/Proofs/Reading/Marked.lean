import StaticConfig.Proofs.Reading.Tandem

/-!
The trees that the parser puts together. Without ranges they depend only on their parts without
ranges, and a mark in a part, which is the range of a step of a splat, is one in the whole.
-/
namespace StaticConfig

namespace Expr

/-- What an expression without ranges is with one more step. -/
def followed (step : Step) : Expr → Expr
  | traversal _ root steps => traversal default root (steps ++ [step])
  | relative _ source steps => relative default source (steps ++ [step])
  | e => relative default e [step]

theorem unplaced_follow (e : Expr) (step : Step) :
    (e.follow step).unplaced = e.unplaced.followed step.unplaced := by
  cases e <;> simp [follow, unplaced, followed]

theorem unplaced_negated (span : Span) (op : UnaryOp) (e : Expr) :
    (Parser.negated span op e).unplaced = Parser.negated default op e.unplaced := by
  cases op with
  | not => cases e <;> rw [Parser.negated, Parser.negated, unplaced] <;> simp [unplaced]
  | neg =>
    cases e with
    | literal place v => cases v <;> rfl
    | _ => simp [Parser.negated, unplaced]

theorem unplaced_splat (e : Expr) (mark : Span) (each : List Step) :
    (Parser.splat e mark each).unplaced = .splat default e.unplaced (each.map Step.unplaced) := by
  rw [Parser.splat, unplaced]

theorem literal?_unplaced (e : Expr) : e.unplaced.literal? = e.literal? := by
  have htext (parts : List TemplatePart) :
      templateText? (unplacedTemplate parts) = templateText? parts := by
    match parts with
    | [] => rfl
    | [.text _] => rfl
    | [.interp _] => rfl
    | .text _ :: .text _ :: _ => rfl
    | .text _ :: .interp _ :: _ => rfl
    | .interp _ :: .text _ :: _ => rfl
    | .interp _ :: .interp _ :: _ => rfl
  cases e with
  | template span parts => rw [unplaced, literal?, literal?, htext]
  | _ =>
    rw [unplaced]
    rfl

theorem literal?_congr {e e' : Expr} (h : e.unplaced = e'.unplaced) : e'.literal? = e.literal? := by
  rw [← literal?_unplaced, ← h, literal?_unplaced]

/-- The steps of a splat. -/
def each : Expr → List Step
  | splat _ _ each => each
  | _ => []

/-- Among the steps an attribute has a range that is torn. -/
def StepsTear (Torn : Span → Prop) (steps : List Step) : Prop :=
  ∃ place name, Step.attr place name ∈ steps ∧ Torn place

/-- Among the parts there is a splat with such a step. -/
def Tears (Torn : Span → Prop) (parts : List Expr) : Prop :=
  ∃ p ∈ parts, StepsTear Torn p.each

variable {Torn : Span → Prop} {e : Expr}

@[simp] theorem not_stepsTear_nil : ¬StepsTear Torn [] := by
  rintro ⟨_, _, ⟨⟩, _⟩

theorem stepsTear_cons {step : Step} {steps : List Step} (h : StepsTear Torn steps) :
    StepsTear Torn (step :: steps) := by
  obtain ⟨place, name, hmem, htorn⟩ := h
  exact ⟨place, name, List.mem_cons_of_mem _ hmem, htorn⟩

theorem Tears.mono {ps qs : List Expr} (h : Tears Torn ps) (hsub : ps ⊆ qs) : Tears Torn qs := by
  obtain ⟨p, hp, hsteps⟩ := h
  exact ⟨p, hsub hp, hsteps⟩

@[simp] theorem tears_append {ps qs : List Expr} :
    Tears Torn (ps ++ qs) ↔ Tears Torn ps ∨ Tears Torn qs := by
  simp only [Tears, List.mem_append, or_and_right, exists_or]

@[simp] theorem tears_cons {p : Expr} {ps : List Expr} :
    Tears Torn (p :: ps) ↔ StepsTear Torn p.each ∨ Tears Torn ps := by
  simp only [Tears, List.mem_cons, or_and_right, exists_or, exists_eq_left]

@[simp] theorem not_tears_nil : ¬Tears Torn [] := by
  rintro ⟨p, hp, -⟩
  cases hp

theorem tears_follow (h : Tears Torn e.parts) (step : Step) : Tears Torn (e.follow step).parts := by
  cases e with
  | traversal span root steps =>
    rw [parts, tears_cons] at h
    exact (h.elim not_stepsTear_nil not_tears_nil).elim
  | relative span source steps =>
    rw [parts, tears_cons] at h
    rw [follow, parts, tears_cons]
    exact .inr (h.resolve_left not_stepsTear_nil)
  | _ =>
    simp only [follow]
    rw [parts, tears_cons]
    exact .inr h

theorem tears_negated (h : Tears Torn e.parts) (span : Span) (op : UnaryOp) :
    Tears Torn (Parser.negated span op e).parts := by
  unfold Parser.negated
  split
  · rw [parts, tears_cons] at h
    exact (h.elim not_stepsTear_nil not_tears_nil).elim
  · rw [parts, tears_cons]
    exact .inr h

theorem tears_splat {mark : Span} {steps : List Step}
    (h : Tears Torn e.parts ∨ StepsTear Torn steps) :
    Tears Torn (Parser.splat e mark steps).parts := by
  rw [Parser.splat, parts, tears_cons]
  exact h.symm

/-- A constant has no marks. -/
theorem literal?_eq_none_of_tears (h : Tears Torn e.parts) : e.literal? = none := by
  cases e with
  | literal span v =>
    rw [parts, tears_cons] at h
    exact (h.elim not_stepsTear_nil not_tears_nil).elim
  | template span parts =>
    rw [Expr.parts, tears_cons] at h
    have hparts := h.resolve_left not_stepsTear_nil
    rw [literal?, Option.map_eq_none_iff]
    unfold templateText?
    split
    · exact (not_tears_nil hparts).elim
    · exact (not_tears_nil hparts).elim
    · rfl
  | _ => rfl

end Expr

/-! An item of an object is its key and its value. -/

namespace ObjectKey

/-- The key without its ranges. -/
def unplaced : ObjectKey → ObjectKey
  | name _ s => name default s
  | expr k => expr k.unplaced

def parts : ObjectKey → List Expr
  | name _ _ => []
  | expr k => k.parts

end ObjectKey

namespace Expr

theorem unplacedItems_cons (key : ObjectKey) (value : Expr) (items : List (ObjectKey × Expr)) :
    unplacedItems ((key, value) :: items) =
      (key.unplaced, value.unplaced) :: unplacedItems items := by
  cases key <;> rw [unplacedItems, ObjectKey.unplaced]

theorem partsOfItems_cons (key : ObjectKey) (value : Expr) (items : List (ObjectKey × Expr)) :
    partsOfItems ((key, value) :: items) = key.parts ++ value.parts ++ partsOfItems items := by
  cases key <;> rw [partsOfItems, ObjectKey.parts]
  rw [List.nil_append]

theorem unplacedTemplate_append (ps qs : List TemplatePart) :
    unplacedTemplate (ps ++ qs) = unplacedTemplate ps ++ unplacedTemplate qs := by
  induction ps with
  | nil => rfl
  | cons p ps ih =>
    cases p <;> rw [List.cons_append, unplacedTemplate, unplacedTemplate, ih, List.cons_append]

end Expr

namespace Parser

/-- All that the parser can find has the property. -/
def Results {α : Type} (P : α → Prop) (p : Parse α) : Prop :=
  ∀ s r, p.run s = .ok r → P r.1

namespace Results

variable {α β : Type} {P : α → Prop}

theorem after {p : Parse β} {f : β → Parse α} (h : ∀ b, Results P (f b)) :
    Results P (p >>= f) := by
  intro s r hrun
  obtain ⟨b, s', -, hrun⟩ := run_bind_eq_ok.1 hrun
  exact h b s' r hrun

theorem pure {a : α} (h : P a) : Results P (pure a) := by
  rintro s _ ⟨⟩
  exact h

theorem failHere {fault : SyntaxFault} : Results P (Parser.failHere fault) := by
  rintro s _ ⟨⟩

theorem ite {c : Prop} [Decidable c] {p q : Parse α} (hp : Results P p) (hq : Results P q) :
    Results P (if c then p else q) := by
  split
  · exact hp
  · exact hq

theorem guarded {missing : Prop} [Decidable missing] {fault : SyntaxFault} {f : Unit → Parse α}
    (h : Results P (f ())) :
    Results P (if missing then Parser.failHere fault >>= f else f ()) := by
  refine ite ?_ h
  rintro s _ ⟨⟩

theorem passing {wanted : Prop} [Decidable wanted] {f : Unit → Parse α}
    (h : ∀ r, Results P (f r)) :
    Results P (if wanted then Parser.advance >>= f else f ()) :=
  ite (after h) (h ())

theorem choosing {c : Prop} [Decidable c] {p : Parse α} {fixed : β} {f : β → Parse α}
    (h : ∀ b, Results P (f b)) (hp : (∀ b, Results P (f b)) → Results P p) :
    Results P (if c then p else Pure.pure fixed >>= f) :=
  ite (hp h) (after h)

theorem «from» {p : Parse α} (h : Results P p) {s : State} : From s p fun a _ => P a :=
  fun r hr => h s r hr

end Results

open StaticConfig.Expr (Tears StepsTear)

variable {Torn : Span → Prop}

/-! What is added to an expression keeps its marks. -/

theorem tears_parseOperators (fuel : Nat) (level : List BinaryOp)
    (tighter : List (List BinaryOp)) {lhs : Expr} (h : Tears Torn lhs.parts) :
    Results (fun e => Tears Torn e.parts) (parseOperators fuel level tighter lhs) := by
  induction fuel generalizing lhs with
  | zero => exact .failHere
  | succ fuel ih =>
    rw [parseOperators]
    refine .after fun tok => ?_
    split
    · exact .pure h
    · refine .after fun _ => .after fun rhs => ih ?_
      rw [Expr.parts, Expr.tears_cons, Expr.tears_append]
      exact .inr (.inl h)

theorem tears_parseSteps (fuel : Nat) {e : Expr} (h : Tears Torn e.parts) :
    Results (fun e => Tears Torn e.parts) (parseSteps fuel e) := by
  induction fuel generalizing e with
  | zero => exact .failHere
  | succ fuel ih =>
    rw [parseSteps]
    refine .after fun mark => .ite ?_ (.ite ?_ (.pure h))
    · refine .after fun _ => .after fun tok => ?_
      split
      · exact .after fun _ => ih (Expr.tears_follow h _)
      · split
        · exact .failHere
        · exact .after fun _ => ih (Expr.tears_follow h _)
      · exact .ite (.after fun _ => .after fun _ => ih (Expr.tears_splat (.inl h))) .failHere
    · refine .after fun _ => .after fun _ => .after fun _ => .ite ?_ ?_
      · refine .after fun _ => .after fun _ => .after fun _ => .after fun _ => .after fun _ => ?_
        exact ih (Expr.tears_splat (.inl h))
      · refine .after fun key => .after fun _ => .after fun _ => .after fun _ => ?_
        split
        · exact ih (Expr.tears_follow h _)
        · refine ih ?_
          rw [Expr.parts, Expr.tears_cons, Expr.tears_append]
          exact .inr (.inl h)

/-! No expression starts at the end or at a star. -/

/-- The token is the end or a star. -/
def Barren (t : Token) : Prop :=
  t.kind = .eof ∨ t.isSymbol "*" = true

namespace Barren

variable {s : State}

theorem isSymbol {t : Token} (h : Barren t) {symbol : String} (hne : symbol ≠ "*") :
    t.isSymbol symbol = false := by
  rw [Token.isSymbol]
  obtain heof | hstar := h
  · rw [heof]
    rfl
  · rw [(Token.isSymbol_iff.1 hstar).2, beq_eq_false_iff_ne.2 hne.symm, Bool.and_false]

theorem parsePrimary (h : Barren s.tok) (fuel : Nat) :
    From s (parsePrimary fuel) fun _ _ => False := by
  cases fuel with
  | zero => exact .failHere
  | succ fuel =>
    rw [Parser.parsePrimary]
    refine .current ?_
    obtain heof | hstar := h
    · rw [heof]
      exact .failHere
    · obtain ⟨hkind, htext⟩ := Token.isSymbol_iff.1 hstar
      rw [hkind, htext, if_neg (by decide), if_neg (by decide), if_neg (by decide)]
      exact .failHere

theorem parseUnary (h : Barren s.tok) (fuel : Nat) :
    From s (parseUnary fuel) fun _ _ => False := by
  cases fuel with
  | zero => exact .failHere
  | succ fuel =>
    rw [Parser.parseUnary]
    refine .current ?_
    rw [h.isSymbol (by decide), h.isSymbol (by decide)]
    change From s (Parser.parsePostfix fuel) _
    cases fuel with
    | zero => exact .failHere
    | succ fuel =>
      rw [Parser.parsePostfix]
      exact (h.parsePrimary fuel).bind fun _ _ => False.elim

theorem parseBinary (h : Barren s.tok) (fuel : Nat) (levels : List (List BinaryOp)) :
    From s (parseBinary fuel levels) fun _ _ => False := by
  induction fuel generalizing levels with
  | zero => exact .failHere
  | succ fuel ih =>
    cases levels with
    | nil => exact h.parseUnary fuel
    | cons level tighter =>
      rw [Parser.parseBinary]
      exact (ih tighter).bind fun _ _ => False.elim

theorem parseExpr (h : Barren s.tok) (fuel : Nat) :
    From s (parseExpr fuel) fun _ _ => False := by
  cases fuel with
  | zero => exact .failHere
  | succ fuel =>
    rw [Parser.parseExpr]
    exact (h.parseBinary fuel _).bind fun _ _ => False.elim

end Barren

/-- No key starts at the end. -/
theorem parseKey_of_eof {s : State} (h : s.tok.kind = .eof) (fuel : Nat) :
    From s (parseKey fuel) fun _ _ => False := by
  cases fuel with
  | zero => exact .failHere
  | succ fuel =>
    rw [parseKey]
    refine .current ?_
    rw [h, if_neg (by decide), pure_bind]
    exact (Barren.parseExpr (.inl h) fuel).bind fun _ _ => False.elim

end Parser

end StaticConfig
