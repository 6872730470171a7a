import StaticConfig.Proofs.Conversion.Hereditary
import StaticConfig.Proofs.Evaluation.Located

/-!
Properties of all values that are written in an expression, the keys of its steps included: what
such a property says about an expression, and about the expressions it is made of.
-/
namespace StaticConfig

open Value

/-- The key of the step, if it has one, is wholly known. -/
def Step.Known : Step → Prop
  | .attr _ _ => True
  | .index _ key => key.isWhollyKnown = true

/-- The key of the step, if it has one, has the property. -/
def Step.Writes (P : Value → Prop) : Step → Prop
  | .attr _ _ => True
  | .index _ key => P key

namespace Expr

/-- The value or the keys that are written in the expression itself are wholly known. -/
def OwnKnown : Expr → Prop
  | literal _ v => v.isWhollyKnown = true
  | e => ∀ s ∈ e.steps, s.Known

/-- All values that are written in the expression are wholly known. -/
def KnownLiterals (e : Expr) : Prop :=
  ∀ p ∈ e.parts, p.OwnKnown

/-- The value or the keys that are written in the expression itself have the property. -/
def OwnWrites (P : Value → Prop) : Expr → Prop
  | literal _ v => P v
  | e => ∀ s ∈ e.steps, s.Writes P

/-- All values that are written in the expression have the property. -/
def Writes (P : Value → Prop) (e : Expr) : Prop :=
  ∀ p ∈ e.parts, p.OwnWrites P

/-- All values that are written in the expressions of a template have the property. -/
def TemplateWrites (P : Value → Prop) (parts : List TemplatePart) : Prop :=
  ∀ e, .interp e ∈ parts → e.Writes P

/-- All values that are written in the expression of the key, if it has one, have the property. -/
def KeyWrites (P : Value → Prop) (key : ObjectKey) : Prop :=
  ∀ e, key = .expr e → e.Writes P

theorem knownLiterals_iff {e : Expr} :
    e.KnownLiterals ↔ e.Writes fun v => v.isWhollyKnown = true := by
  have hstep (s : Step) : s.Known ↔ s.Writes fun v => v.isWhollyKnown = true := by
    cases s <;> exact Iff.rfl
  have hown (p : Expr) : p.OwnKnown ↔ p.OwnWrites fun v => v.isWhollyKnown = true := by
    cases p with
    | literal span v => exact Iff.rfl
    | _ => exact forall₂_congr fun s _ => hstep s
  exact forall₂_congr fun p _ => hown p

theorem partsOfAll_eq (es : List Expr) : partsOfAll es = es.flatMap parts := by
  induction es with
  | nil => rfl
  | cons e es ih => rw [partsOfAll, ih, List.flatMap_cons]

theorem forall_partsOfAll {P : Expr → Prop} {es : List Expr} :
    (∀ p ∈ partsOfAll es, P p) ↔ ∀ e ∈ es, ∀ p ∈ e.parts, P p := by
  rw [partsOfAll_eq]
  simp only [List.mem_flatMap]
  exact ⟨fun h e he p hp => h p ⟨e, he, hp⟩, fun h p ⟨e, he, hp⟩ => h e he p hp⟩

theorem forall_partsOfOption {P : Expr → Prop} {e : Option Expr} :
    (∀ p ∈ partsOfOption e, P p) ↔ ∀ x ∈ e, ∀ p ∈ x.parts, P p := by
  cases e with
  | none => simp [partsOfOption]
  | some e => simp [partsOfOption]

theorem forall_partsOfTemplate {P : Expr → Prop} {parts : List TemplatePart} :
    (∀ p ∈ partsOfTemplate parts, P p) ↔ ∀ e, .interp e ∈ parts → ∀ p ∈ e.parts, P p := by
  induction parts with
  | nil => simp [partsOfTemplate]
  | cons part parts ih =>
    cases part with
    | text s => simp [partsOfTemplate, ih]
    | interp e => simp [partsOfTemplate, or_imp, forall_and, ih]

theorem forall_partsOfItems {P : Expr → Prop} {items : List (ObjectKey × Expr)} :
    (∀ p ∈ partsOfItems items, P p) ↔ ∀ item ∈ items,
      (∀ e, item.1 = .expr e → ∀ p ∈ e.parts, P p) ∧ ∀ p ∈ item.2.parts, P p := by
  induction items with
  | nil => simp [partsOfItems]
  | cons item items ih =>
    obtain ⟨key, value⟩ := item
    rw [List.forall_mem_cons, ← ih]
    cases key with
    | name span s => simp [partsOfItems, or_imp, forall_and]
    | expr e => simp [partsOfItems, or_imp, forall_and, and_assoc]

variable {P : Value → Prop}

section Constructors

variable {span : Span}

/-- An expression adds what is written in it itself to what is written in the parts inside. -/
theorem writes_iff {e : Expr} {inside : List Expr} (h : e.parts = e :: inside) :
    e.Writes P ↔ e.OwnWrites P ∧ ∀ p ∈ inside, p.OwnWrites P := by
  unfold Writes
  rw [h, List.forall_mem_cons]

theorem writes_literal {v : Value} :
    (literal span v).Writes P ↔ P v :=
  (writes_iff rfl).trans (and_iff_left nofun)

theorem writes_template {parts : List TemplatePart} :
    (template span parts).Writes P ↔ TemplateWrites P parts := by
  rw [writes_iff rfl, forall_partsOfTemplate]
  exact and_iff_right nofun

theorem writes_traversal {root : String} {steps : List Step} :
    (traversal span root steps).Writes P ↔ ∀ s ∈ steps, s.Writes P :=
  (writes_iff rfl).trans (and_iff_left nofun)

theorem writes_relative {source : Expr} {steps : List Step} :
    (relative span source steps).Writes P ↔
      source.Writes P ∧ ∀ s ∈ steps, s.Writes P := by
  rw [writes_iff rfl, and_comm]
  rfl

theorem writes_index {collection key : Expr} :
    (index span collection key).Writes P ↔
      collection.Writes P ∧ key.Writes P := by
  rw [writes_iff rfl, List.forall_mem_append]
  exact and_iff_right nofun

theorem writes_splat {source : Expr} {each : List Step} :
    (splat span source each).Writes P ↔ source.Writes P ∧ ∀ s ∈ each, s.Writes P := by
  rw [writes_iff rfl, and_comm]
  rfl

theorem writes_tuple {items : List Expr} :
    (tuple span items).Writes P ↔ ∀ e ∈ items, e.Writes P := by
  rw [writes_iff rfl, forall_partsOfAll]
  exact and_iff_right nofun

theorem writes_object {items : List (ObjectKey × Expr)} :
    (object span items).Writes P ↔
      ∀ item ∈ items, KeyWrites P item.1 ∧ item.2.Writes P := by
  rw [writes_iff rfl, forall_partsOfItems]
  exact and_iff_right nofun

theorem writes_call {name : String} {args : List Expr} {expand : Bool} :
    (call span name args expand).Writes P ↔ ∀ e ∈ args, e.Writes P := by
  rw [writes_iff rfl, forall_partsOfAll]
  exact and_iff_right nofun

theorem writes_unary {op : UnaryOp} {operand : Expr} :
    (unary span op operand).Writes P ↔ operand.Writes P := by
  rw [writes_iff rfl]
  exact and_iff_right nofun

theorem writes_binary {op : BinaryOp} {lhs rhs : Expr} :
    (binary span op lhs rhs).Writes P ↔ lhs.Writes P ∧ rhs.Writes P := by
  rw [writes_iff rfl, List.forall_mem_append]
  exact and_iff_right nofun

theorem writes_conditional {cond yes no : Expr} :
    (conditional span cond yes no).Writes P ↔
      cond.Writes P ∧ yes.Writes P ∧ no.Writes P := by
  rw [writes_iff rfl, List.forall_mem_append, List.forall_mem_append, and_assoc]
  exact and_iff_right nofun

theorem writes_forEach {keyVar : Option String} {valueVar : String} {collection : Expr}
    {key : Option Expr} {value : Expr} {cond : Option Expr} {group : Bool} :
    (forEach span keyVar valueVar collection key value cond group).Writes P ↔
      collection.Writes P ∧ (∀ e ∈ key, e.Writes P) ∧ value.Writes P ∧
        ∀ e ∈ cond, e.Writes P := by
  rw [writes_iff rfl, List.forall_mem_append, List.forall_mem_append,
    List.forall_mem_append, forall_partsOfOption, forall_partsOfOption, and_assoc, and_assoc]
  exact and_iff_right nofun

theorem writes_parens {inner : Expr} :
    (parens span inner).Writes P ↔ inner.Writes P := by
  rw [writes_iff rfl]
  exact and_iff_right nofun

end Constructors

/-- A literal that is read off an expression is written in it, or it is a text. -/
theorem Writes.literal? (H : Hereditary P) {e : Expr} {v : Value} (h : e.Writes P)
    (hv : e.literal? = some v) : P v := by
  cases e with
  | literal span value =>
    cases hv
    exact writes_literal.1 h
  | template span parts =>
    obtain ⟨s, -, rfl⟩ := Option.map_eq_some_iff.1 hv
    exact H.string s
  | _ => cases hv

/-- One more step behind an expression. -/
theorem Writes.follow {e : Expr} {step : Step} (h : e.Writes P) (hstep : step.Writes P) :
    (e.follow step).Writes P := by
  have hsteps {steps : List Step} (hs : ∀ s ∈ steps, s.Writes P) :
      ∀ s ∈ steps ++ [step], s.Writes P :=
    List.forall_mem_append.2 ⟨hs, List.forall_mem_singleton.2 hstep⟩
  unfold Expr.follow
  cases e with
  | traversal span root steps =>
    exact writes_traversal.2 (hsteps (writes_traversal.1 h))
  | relative span source steps =>
    obtain ⟨hsource, hs⟩ := writes_relative.1 h
    exact writes_relative.2 ⟨hsource, hsteps hs⟩
  | _ => exact writes_relative.2 ⟨h, List.forall_mem_singleton.2 hstep⟩

end Expr

end StaticConfig
