import StaticConfig.Eval.Basic
import StaticConfig.Proofs.Except
import StaticConfig.Proofs.Fields

/-!
Values of the same form: without a mark at the top, equal where they have no parts, and with
parts that are related one by one. What is read off such values as a text, number or truth value
is the same, and what is taken out of them is related.
-/
namespace StaticConfig.Value

inductive Alike (R : Value → Value → Prop) : Value → Value → Prop
  | null {t : Ty} : Alike R (.null t) (.null t)
  | unknown {t : Ty} : Alike R (.unknown t) (.unknown t)
  | bool {b : Bool} : Alike R (.bool b) (.bool b)
  | number {n : Number} : Alike R (.number n) (.number n)
  | string {s : String} : Alike R (.string s) (.string s)
  | list {e : Ty} {vs ws : List Value} : List.Forall₂ R vs ws → Alike R (.list e vs) (.list e ws)
  | set {e : Ty} {vs ws : List Value} : List.Forall₂ R vs ws → Alike R (.set e vs) (.set e ws)
  | map {e : Ty} {as bs : Fields Value} :
      Fields.Related R as bs → Alike R (.map e as) (.map e bs)
  | tuple {vs ws : List Value} : List.Forall₂ R vs ws → Alike R (.tuple vs) (.tuple ws)
  | object {as bs : Fields Value} : Fields.Related R as bs → Alike R (.object as) (.object bs)

/-- The value has neither a mark nor parts. -/
def isLeaf : Value → Bool
  | null _ | unknown _ | bool _ | number _ | string _ => true
  | _ => false

/-- Entries with related keys and related values. -/
def Paired (R : Value → Value → Prop) (a b : Value × Value) : Prop :=
  R a.1 b.1 ∧ R a.2 b.2

namespace Alike

variable {R : Value → Value → Prop} {v w : Value}

theorem mono {S : Value → Value → Prop} (hRS : ∀ a b, R a b → S a b) (h : Alike R v w) :
    Alike S v w := by
  cases h with
  | null => exact .null
  | unknown => exact .unknown
  | bool => exact .bool
  | number => exact .number
  | string => exact .string
  | list h => exact .list (h.imp hRS)
  | set h => exact .set (h.imp hRS)
  | map h => exact .map (h.mono hRS)
  | tuple h => exact .tuple (h.imp hRS)
  | object h => exact .object (h.mono hRS)

theorem isMarked_left (h : Alike R v w) : v.isMarked = false := by
  cases h <;> rfl

theorem isMarked_right (h : Alike R v w) : w.isMarked = false := by
  cases h <;> rfl

theorem isNull_bare (h : Alike R v w) : v.bare.isNull = w.bare.isNull := by
  cases h <;> rfl

theorem isKnown_bare (h : Alike R v w) : v.bare.isKnown = w.bare.isKnown := by
  cases h <;> rfl

/-- A collection does not convert to a primitive type, whatever its parts are. -/
theorem convert_bare (h : Alike R v w) {t : Ty} (ht : t.isPrimitive = true) :
    v.bare.convert t = w.bare.convert t := by
  cases h <;> first | rfl | (cases t <;> first | rfl | cases ht)

theorem convert?_bare (h : Alike R v w) {t : Ty} (ht : t.isPrimitive = true) :
    v.bare.convert? t = w.bare.convert? t := by
  rw [convert?, convert?, h.convert_bare ht]

theorem getElem?_of_forall₂ {vs ws : List Value} (h : List.Forall₂ R vs ws) (i : Nat) :
    Option.Rel R vs[i]? ws[i]? := by
  induction h generalizing i with
  | nil => exact .none
  | cons hab _ ih =>
    cases i with
    | zero => exact .some hab
    | succ i => exact ih i

theorem rel_bind {α : Type} {o : Option α} {f g : α → Option Value}
    (h : ∀ a, Option.Rel R (f a) (g a)) : Option.Rel R (o >>= f) (o >>= g) := by
  cases o with
  | none => exact .none
  | some a => exact h a

theorem rel_of_found {x y : Option Value} {e : EvalError} {p q : Value}
    (hp : (match x with | some v => .ok v | none => .error e : Evaluated) = .ok p)
    (hq : (match y with | some v => .ok v | none => .error e : Evaluated) = .ok q)
    (h : Option.Rel R x y) : R p q := by
  cases h with
  | none => cases hp
  | some hab =>
    cases hp
    cases hq
    exact hab

theorem itemAt {key key' : Value} {vs ws : List Value} (h : List.Forall₂ R vs ws)
    (hk : key.convert? .number = key'.convert? .number) :
    Option.Rel R (itemAt vs key) (itemAt ws key') := by
  simp only [Value.itemAt, hk]
  refine rel_bind fun k => rel_bind fun n => rel_bind fun i => ?_
  split
  · exact .none
  · exact getElem?_of_forall₂ h _

theorem entryAt {key key' : Value} {as bs : Fields Value} (h : Fields.Related R as bs)
    (hk : key.convert? .string = key'.convert? .string) :
    Option.Rel R (entryAt as key) (entryAt bs key') := by
  simp only [Value.entryAt, hk]
  exact rel_bind fun k => rel_bind fun s => h.get? s

theorem bareAttr {p q : Value} {name : String} {span : Span}
    (hl : ∀ v : Value, v.isLeaf = true → R v v) (h : Alike R v w)
    (hp : v.bareAttr name span = .ok p) (hq : w.bareAttr name span = .ok q) : R p q := by
  cases h with
  | @unknown t =>
    rw [hp] at hq
    cases hq
    cases t <;> cases hp <;> exact hl _ rfl
  | map h => exact rel_of_found hp hq (h.get? name)
  | object h => exact rel_of_found hp hq (h.get? name)
  | _ => cases hp

/-- The keys may differ as long as they read the same. -/
theorem bareElement {p q key key' : Value} {span : Span}
    (hl : ∀ v : Value, v.isLeaf = true → R v v) (h : Alike R v w) (hnull : key.isNull = key'.isNull)
    (hknown : key.isKnown = key'.isKnown)
    (hconv : ∀ t : Ty, t.isPrimitive = true → key.convert? t = key'.convert? t)
    (hp : v.bareElement key span = .ok p) (hq : w.bareElement key' span = .ok q) : R p q := by
  simp only [Value.bareElement, hnull] at hp hq
  split at hp
  · cases hp
  · rename_i hn
    simp only [hn, hknown] at hp hq
    by_cases hk : key'.isKnown = true
    · simp only [hk] at hp hq
      cases h with
      | list h => exact rel_of_found hp hq (itemAt h (hconv .number rfl))
      | tuple h => exact rel_of_found hp hq (itemAt h (hconv .number rfl))
      | map h => exact rel_of_found hp hq (entryAt h (hconv .string rfl))
      | object h => exact rel_of_found hp hq (entryAt h (hconv .string rfl))
      | unknown =>
        cases hp
        cases hq
        exact hl _ rfl
      | _ => cases hp
    · simp only [hk] at hp hq
      cases h with
      | null => cases hp
      | set => cases hp
      | _ =>
        cases hp
        cases hq
        exact hl _ rfl

theorem indexed (hl : ∀ v : Value, v.isLeaf = true → R v v) {vs ws : List Value}
    (h : List.Forall₂ R vs ws) (start : Nat) :
    List.Forall₂ (Paired R) (indexed start vs) (indexed start ws) := by
  induction h generalizing start with
  | nil => exact .nil
  | cons hab _ ih => exact .cons ⟨hl _ rfl, hab⟩ (ih (start + 1))

theorem namedPairs (hl : ∀ v : Value, v.isLeaf = true → R v v) {as bs : Fields Value}
    (h : Fields.Related R as bs) :
    List.Forall₂ (Paired R) (as.map fun e => (Value.string e.1, e.2))
      (bs.map fun e => (Value.string e.1, e.2)) := by
  induction h with
  | nil => exact .nil
  | cons hab _ ih => exact .cons ⟨hl _ rfl, hab⟩ ih

theorem ownKeys {vs ws : List Value} (h : List.Forall₂ R vs ws) :
    List.Forall₂ (Paired R) (vs.map fun v => (v, v)) (ws.map fun w => (w, w)) := by
  induction h with
  | nil => exact .nil
  | cons hab _ ih => exact .cons ⟨hab, hab⟩ ih

theorem iterated? (hl : ∀ v : Value, v.isLeaf = true → R v v) (h : Alike R v w) :
    Option.Rel (List.Forall₂ (Paired R)) v.iterated? w.iterated? := by
  cases h with
  | list h => exact .some (indexed hl h 0)
  | set h => exact .some (ownKeys h)
  | tuple h => exact .some (indexed hl h 0)
  | map h => exact .some (namedPairs hl h)
  | object h => exact .some (namedPairs hl h)
  | _ => exact .none

/-! What is read off the whole value. -/

theorem interpolated_eq (h : Alike R v w) (place span : Span) :
    Eval.interpolated v.bare place span = Eval.interpolated w.bare place span := by
  simp only [Eval.interpolated, h.isNull_bare, h.isKnown_bare, h.convert_bare (t := .string) rfl]

theorem keyText_eq (h : Alike R v w) (span : Span) (null : EvalFault)
    (wrong : ConversionError → EvalFault) :
    Eval.keyText v.bare span null wrong = Eval.keyText w.bare span null wrong := by
  simp only [Eval.keyText, h.isNull_bare, h.isKnown_bare, h.convert_bare (t := .string) rfl]

theorem truth_eq (h : Alike R v w) : Eval.truth v.bare = Eval.truth w.bare := by
  simp only [Eval.truth, h.convert_bare (t := .bool) rfl]

theorem operand_eq (h : Alike R v w) {t : Ty} (ht : t.isPrimitive = true) (span : Span)
    (side : Side) : Operator.operand v.bare t span side = Operator.operand w.bare t span side := by
  simp only [Operator.operand, h.isNull_bare, h.convert_bare ht]

end Alike

end StaticConfig.Value
