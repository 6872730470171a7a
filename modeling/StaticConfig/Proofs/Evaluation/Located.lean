import Mathlib.Data.List.Nodup
import StaticConfig.Proofs.Evaluation.Raised

/-!
Errors and the ranges that they are raised at. Where each range is that of one part of an expression
only, the range and the summary of an error fix what it says, whatever the values are, unless it
is one of those that describe values.
-/
namespace StaticConfig

namespace Expr

mutual

/-- The expression and all parts inside of it. -/
def parts (e : Expr) : List Expr :=
  e :: match e with
    | literal _ _ => []
    | template _ parts => partsOfTemplate parts
    | traversal _ _ _ => []
    | relative _ source _ => source.parts
    | index _ collection key => collection.parts ++ key.parts
    | splat _ source _ => source.parts
    | tuple _ items => partsOfAll items
    | object _ items => partsOfItems items
    | call _ _ args _ => partsOfAll args
    | unary _ _ operand => operand.parts
    | binary _ _ lhs rhs => lhs.parts ++ rhs.parts
    | conditional _ cond yes no => cond.parts ++ yes.parts ++ no.parts
    | forEach _ _ _ collection key value cond _ =>
      collection.parts ++ partsOfOption key ++ value.parts ++ partsOfOption cond
    | parens _ inner => inner.parts

def partsOfAll : List Expr → List Expr
  | [] => []
  | e :: es => e.parts ++ partsOfAll es

def partsOfOption : Option Expr → List Expr
  | none => []
  | some e => e.parts

def partsOfTemplate : List TemplatePart → List Expr
  | [] => []
  | .text _ :: parts => partsOfTemplate parts
  | .interp e :: parts => e.parts ++ partsOfTemplate parts

def partsOfItems : List (ObjectKey × Expr) → List Expr
  | [] => []
  | (.name _ _, value) :: items => value.parts ++ partsOfItems items
  | (.expr key, value) :: items => key.parts ++ value.parts ++ partsOfItems items

end

/-- A range is that of one part only, and of one step. The parts of a text differ in their
ranges. -/
structure Located (e : Expr) : Prop where
  part : ∀ p ∈ e.parts, ∀ q ∈ e.parts, p.span = q.span → p = q
  step : ∀ p ∈ e.parts, ∀ q ∈ e.parts, ∀ a ∈ p.steps, ∀ b ∈ q.steps, a.span = b.span → a = b

theorem located_of_nodup {e : Expr} (hparts : (e.parts.map Expr.span).Nodup)
    (hsteps : ((e.parts.flatMap Expr.steps).map Step.span).Nodup) : e.Located := by
  constructor
  · intro p hp q hq hspan
    exact List.inj_on_of_nodup_map hparts hp hq hspan
  · intro p hp q hq a ha b hb hspan
    exact List.inj_on_of_nodup_map hsteps (List.mem_flatMap.2 ⟨p, hp, ha⟩)
      (List.mem_flatMap.2 ⟨q, hq, hb⟩) hspan

theorem mem_parts_self (e : Expr) : e ∈ e.parts := by
  cases e <;> exact List.mem_cons_self

theorem parts_subset_all {es : List Expr} {e : Expr} (h : e ∈ es) : e.parts ⊆ partsOfAll es := by
  induction es with
  | nil => cases h
  | cons e' es ih =>
    rcases List.mem_cons.1 h with rfl | h
    · exact List.subset_append_left _ _
    · exact List.subset_append_of_subset_right _ (ih h)

theorem parts_subset_template {parts : List TemplatePart} {e : Expr} (h : .interp e ∈ parts) :
    e.parts ⊆ partsOfTemplate parts := by
  induction parts with
  | nil => cases h
  | cons part parts ih =>
    cases part with
    | text text => exact ih ((List.mem_cons.1 h).resolve_left nofun)
    | interp e' =>
      rcases List.mem_cons.1 h with heq | h
      · cases heq
        exact List.subset_append_left _ _
      · exact List.subset_append_of_subset_right _ (ih h)

theorem parts_subset_items {items : List (ObjectKey × Expr)} {key : ObjectKey} {value : Expr}
    (h : (key, value) ∈ items) :
    value.parts ⊆ partsOfItems items ∧ ∀ e, key = .expr e → e.parts ⊆ partsOfItems items := by
  induction items with
  | nil => cases h
  | cons item items ih =>
    rcases List.mem_cons.1 h with rfl | h
    · cases key with
      | name span name => exact ⟨List.subset_append_left _ _, nofun⟩
      | expr e' =>
        refine ⟨fun p hp => ?_, fun e he p hp => ?_⟩
        · exact List.mem_append_left _ (List.mem_append_right _ hp)
        · cases he
          exact List.mem_append_left _ (List.mem_append_left _ hp)
    · obtain ⟨hvalue, hkey⟩ := ih h
      obtain ⟨key', value'⟩ := item
      cases key' with
      | name span name =>
        exact ⟨List.subset_append_of_subset_right _ hvalue, fun e he =>
          List.subset_append_of_subset_right _ (hkey e he)⟩
      | expr e' =>
        exact ⟨List.subset_append_of_subset_right _ hvalue, fun e he =>
          List.subset_append_of_subset_right _ (hkey e he)⟩

end Expr

namespace Eval

/-- What is inside of a part is inside of the whole. -/
theorem Inner.parts_subset {env env' : Env} {e e' : Expr} (h : Inner env e env' e') :
    e'.parts ⊆ e.parts := by
  refine fun p hp => ?_
  cases h with
  | parens => exact List.mem_cons_of_mem _ hp
  | related => exact List.mem_cons_of_mem _ hp
  | splatted => exact List.mem_cons_of_mem _ hp
  | operand => exact List.mem_cons_of_mem _ hp
  | indexed => exact List.mem_cons_of_mem _ (List.mem_append_left _ hp)
  | index => exact List.mem_cons_of_mem _ (List.mem_append_right _ hp)
  | lhs => exact List.mem_cons_of_mem _ (List.mem_append_left _ hp)
  | rhs => exact List.mem_cons_of_mem _ (List.mem_append_right _ hp)
  | cond => exact List.mem_cons_of_mem _ (List.mem_append_left _ (List.mem_append_left _ hp))
  | yes => exact List.mem_cons_of_mem _ (List.mem_append_left _ (List.mem_append_right _ hp))
  | no => exact List.mem_cons_of_mem _ (List.mem_append_right _ hp)
  | item he => exact List.mem_cons_of_mem _ (Expr.parts_subset_all he hp)
  | arg he => exact List.mem_cons_of_mem _ (Expr.parts_subset_all he hp)
  | interp he => exact List.mem_cons_of_mem _ (Expr.parts_subset_template he hp)
  | key hmem => exact List.mem_cons_of_mem _ ((Expr.parts_subset_items hmem).2 _ rfl hp)
  | value hmem => exact List.mem_cons_of_mem _ ((Expr.parts_subset_items hmem).1 hp)
  | collection =>
    exact List.mem_cons_of_mem _ (List.mem_append_left _ (List.mem_append_left _
      (List.mem_append_left _ hp)))
  | filter pair => exact List.mem_cons_of_mem _ (List.mem_append_right _ hp)
  | itemKey pair =>
    exact List.mem_cons_of_mem _ (List.mem_append_left _ (List.mem_append_left _
      (List.mem_append_right _ hp)))
  | itemValue pair =>
    exact List.mem_cons_of_mem _ (List.mem_append_left _ (List.mem_append_right _ hp))

variable {env env' : Env} {e p q : Expr} {a b : EvalError}

theorem Raised.ofValue_or_written (h : Raised env e a) :
    a.fault.ofValue = true ∨ ∃ env', ∃ p ∈ e.parts, Written env' p a := by
  induction h with
  | ofValue h => exact .inl h
  | written h => exact .inr ⟨_, _, Expr.mem_parts_self _, h⟩
  | inner hinner _ ih =>
    obtain hvalue | ⟨env', p, hp, hwritten⟩ := ih
    · exact .inl hvalue
    · exact .inr ⟨env', p, hinner.parts_subset hp, hwritten⟩

/-- What is written at a range says one thing under one summary. -/
theorem Written.eq_of_located (he : e.Located) (hp : p ∈ e.parts) (hq : q ∈ e.parts)
    (ha : Written env p a) (hb : Written env' q b) (hspan : a.span = b.span)
    (hsummary : a.fault.summary = b.fault.summary) : a = b := by
  have hpart := he.part p hp q hq
  have hstep := he.step p hp q hq
  cases ha with
  | name h =>
    cases hb with
    | name h' =>
      cases hpart hspan
      rfl
    | _ => simp [EvalFault.summary] at hsummary
  | member h =>
    cases hb with
    | member h' =>
      cases hstep _ h _ h' hspan
      rfl
    | _ => simp [EvalFault.summary] at hsummary
  | function =>
    cases hb with
    | function =>
      cases hpart hspan
      rfl
    | _ => simp [EvalFault.summary] at hsummary
  | operation h =>
    cases hb with
    | operation h' =>
      cases hpart hspan
      cases h.symm.trans h'
      rfl
    | _ => simp [EvalFault.summary] at hsummary
  | text h =>
    cases hb with
    | text h' => rw [hpart hspan]
    | interpolated h' =>
      rw [hpart hspan, h'] at h
      cases h
    | _ => simp [EvalFault.summary] at hsummary
  | interpolated h =>
    cases hb with
    | interpolated h' => rw [hpart hspan]
    | text h' =>
      rw [hpart hspan, h'] at h
      cases h
    | _ => simp [EvalFault.summary] at hsummary

end Eval

namespace EvalFault

/-- The summaries whose details describe values. -/
def describing : List String := [
  "Unsupported attribute", "Invalid index", "Invalid operand", "Invalid expanding argument value",
  "Error in function call", "Inconsistent conditional result types",
  "Iteration over non-iterable value", "Invalid 'for' condition", "Invalid object key",
  "Duplicate object key"]

/-- The faults of values that describe none. -/
def plain : List EvalFault := [
  nullAttribute, nullIndexed, nullObjectKey, wrongObjectKey .textRequired, nullCondition,
  wrongCondition, nullIteration, nullFilter]

theorem mem_plain {fault : EvalFault} (h : fault.ofValue = true)
    (hsummary : fault.summary ∉ describing) : fault ∈ plain := by
  cases fault with
  | nullAttribute | nullIndexed | nullObjectKey | nullCondition | wrongCondition | nullIteration
  | nullFilter => simp [plain]
  | wrongObjectKey e =>
    rw [of_decide_eq_true h]
    simp [plain]
  | unknownVariable | noMapElement | unknownFunction | failedOperation | nullInterpolation
  | wrongInterpolation => cases h
  | _ => simp [describing, summary] at hsummary

theorem eq_of_plain {a b : EvalFault} (ha : a ∈ plain) (hb : b ∈ plain)
    (h : a.summary = b.summary) : a = b :=
  List.inj_on_of_nodup_map (by decide) ha hb h

end EvalFault

namespace Eval

variable {env env' : Env} {e p : Expr} {a b : EvalError}

/-- What is written is told under a summary of its own. -/
theorem Written.ne_plain (ha : Written env p a) (hb : b.fault ∈ EvalFault.plain) :
    a.fault.summary ≠ b.fault.summary := by
  have hnone : a.fault.summary ∉ EvalFault.plain.map EvalFault.summary := by
    cases ha <;> simp [EvalFault.plain, EvalFault.summary]
  exact fun h => hnone (h ▸ List.mem_map_of_mem hb)

/-- Errors at one range and with one summary are the same, if they do not describe values. -/
theorem Raised.eq_of_located (he : e.Located) (ha : Raised env e a) (hb : Raised env' e b)
    (hspan : a.span = b.span) (hsummary : a.fault.summary = b.fault.summary)
    (hplain : a.fault.summary ∉ EvalFault.describing) : a = b := by
  obtain hvalue | ⟨_, p, hp, hwritten⟩ := ha.ofValue_or_written
  · have hmem := EvalFault.mem_plain hvalue hplain
    obtain hvalue' | ⟨_, q, hq, hwritten'⟩ := hb.ofValue_or_written
    · have hfault := EvalFault.eq_of_plain hmem
        (EvalFault.mem_plain hvalue' (hsummary ▸ hplain)) hsummary
      cases a
      cases b
      cases hspan
      cases hfault
      rfl
    · exact absurd hsummary.symm (hwritten'.ne_plain hmem)
  · obtain hvalue' | ⟨_, q, hq, hwritten'⟩ := hb.ofValue_or_written
    · exact absurd hsummary
        (hwritten.ne_plain (EvalFault.mem_plain hvalue' (hsummary ▸ hplain)))
    · exact Written.eq_of_located he hp hq hwritten hwritten' hspan hsummary

end Eval

end StaticConfig
