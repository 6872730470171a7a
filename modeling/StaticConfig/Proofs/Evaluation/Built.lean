import StaticConfig.Proofs.Builtin.Keeps
import StaticConfig.Proofs.Conversion.MarkedOnce
import StaticConfig.Proofs.Evaluation.Forms
import StaticConfig.Proofs.Evaluation.Literals
import StaticConfig.Proofs.Sensitivity.Parts

/-!
What an evaluation makes of values that all have a property of all their parts, such as being known
or being marked once. The parts that it takes have the property, and so do the values that it
builds, since it makes up an unknown value only where it comes upon one.
-/
namespace StaticConfig

open StaticConfig.Except

namespace Value

variable {P : Value → Prop} {v w r : Value} {span : Span}

mutual

/-- Something in the value is unknown, so the property holds of unknown values. -/
theorem Hereditary.unknown_of_isWhollyKnown (H : Hereditary P) :
    ∀ v : Value, P v → v.isWhollyKnown = false → ∀ u, P (.unknown u)
  | .unknown _, hv, _, u => H.unknown u hv
  | .sensitive v, hv, h, u => H.unknown_of_isWhollyKnown v (H.inner hv) h u
  | .list _ items, hv, h, u => H.unknown_of_allKnown items (H.list.1 hv) h u
  | .set _ items, hv, h, u => H.unknown_of_allKnown items (H.set.1 hv) h u
  | .tuple items, hv, h, u => H.unknown_of_allKnown items (H.tuple.1 hv) h u
  | .map _ entries, hv, h, u => H.unknown_of_allFieldsKnown entries (H.map.1 hv) h u
  | .object attrs, hv, h, u => H.unknown_of_allFieldsKnown attrs (H.object.1 hv) h u

theorem Hereditary.unknown_of_allKnown (H : Hereditary P) : ∀ vs : List Value,
    (∀ v ∈ vs, P v) → allKnown vs = false → ∀ u, P (.unknown u)
  | v :: vs, hvs, h, u => by
    obtain ⟨hv, hvs⟩ := List.forall_mem_cons.1 hvs
    rcases Bool.and_eq_false_iff.1 h with h | h
    · exact H.unknown_of_isWhollyKnown v hv h u
    · exact H.unknown_of_allKnown vs hvs h u

theorem Hereditary.unknown_of_allFieldsKnown (H : Hereditary P) :
    ∀ fields : List (String × Value), (∀ p ∈ fields, P p.2) → allFieldsKnown fields = false →
      ∀ u, P (.unknown u)
  | (_, v) :: rest, hfields, h, u => by
    obtain ⟨hv, hrest⟩ := List.forall_mem_cons.1 hfields
    rcases Bool.and_eq_false_iff.1 h with h | h
    · exact H.unknown_of_isWhollyKnown v hv h u
    · exact H.unknown_of_allFieldsKnown rest hrest h u

end

/-- Besides, the property holds of marked values as of others. -/
structure Markable (P : Value → Prop) : Prop extends Hereditary P where
  marked {v : Value} : P v → P v.mark

theorem isWhollyKnown_mark (v : Value) : v.mark.isWhollyKnown = v.isWhollyKnown := by
  cases v <;> rfl

theorem Markable.whollyKnown : Markable fun v => v.isWhollyKnown = true where
  toHereditary := Hereditary.whollyKnown
  marked {v} h := (isWhollyKnown_mark v).trans h

theorem Markable.markedOnce : Markable MarkedOnce where
  toHereditary := Hereditary.markedOnce
  marked := MarkedOnce.mark

/-! Parts. -/

theorem eq_some_of_found {found : Option Value} {e : EvalError}
    (h : (match found with
      | some v => .ok v
      | none => .error e : Evaluated) = .ok r) : found = some r := by
  cases found with
  | none => cases h
  | some v =>
    cases h
    rfl

theorem mem_of_itemAt {items : List Value} {key : Value} (h : itemAt items key = some r) :
    r ∈ items := by
  obtain ⟨_, _, h⟩ := Option.bind_eq_some_iff.1 h
  obtain ⟨_, _, h⟩ := Option.bind_eq_some_iff.1 h
  obtain ⟨index, _, h⟩ := Option.bind_eq_some_iff.1 h
  split at h
  · cases h
  · exact List.mem_of_getElem? h

theorem mem_of_entryAt {entries : Fields Value} {key : Value} (h : entryAt entries key = some r) :
    ∃ name, (name, r) ∈ entries := by
  obtain ⟨_, _, h⟩ := Option.bind_eq_some_iff.1 h
  obtain ⟨name, _, h⟩ := Option.bind_eq_some_iff.1 h
  exact ⟨name, Fields.mem_of_get? h⟩

theorem forall_mem_insert {fields : Fields Value} {name : String} (hfields : ∀ p ∈ fields, P p.2)
    (hv : P v) : ∀ p ∈ Fields.insert name v fields, P p.2 := by
  intro p hp
  rcases Fields.mem_insert hp with rfl | hp
  · exact hv
  · exact hfields p hp

namespace Markable

theorem markIf (H : Markable P) (m : Bool) (hv : P v) : P (markIf m v) := by
  cases m with
  | false => exact hv
  | true => exact H.marked hv

theorem unmarked (H : Markable P) (hv : P v) : P v.unmarked := by
  cases v with
  | sensitive v => exact H.inner hv
  | _ => exact hv

theorem attr (H : Markable P) {name : String} (hv : P v) (h : v.attr name span = .ok r) :
    P r := by
  obtain ⟨part, hpart, rfl⟩ := map_eq_ok.1 h
  refine H.markIf _ ?_
  replace hv := H.unmarked hv
  generalize v.unmarked = u at hv hpart
  cases u with
  | unknown t =>
    cases t <;>
    · cases hpart
      exact H.unknown _ hv
  | map e entries => exact H.map.1 hv _ (Fields.mem_of_get? (eq_some_of_found hpart))
  | object attrs => exact H.object.1 hv _ (Fields.mem_of_get? (eq_some_of_found hpart))
  | _ => cases hpart

theorem element (H : Markable P) {key : Value} (hv : P v) (hkey : P key)
    (h : v.element key span = .ok r) : P r := by
  obtain ⟨part, hpart, rfl⟩ := map_eq_ok.1 h
  refine H.markIf _ ?_
  replace hv := H.unmarked hv
  generalize v.unmarked = u at hv hpart
  unfold bareElement at hpart
  split at hpart
  · cases hpart
  split at hpart
  · cases hpart
  · cases hpart
    exact H.unknown _ hv
  · cases hpart
  · split at hpart
    · next hk =>
      cases hpart
      exact H.unknown_of_isKnown _ (H.bare key hkey) (by simpa using hk) _
    · split at hpart
      · next items hitems =>
        exact H.items? hv hitems part (mem_of_itemAt (eq_some_of_found hpart))
      · next entries hentries =>
        obtain ⟨name, hmem⟩ := mem_of_entryAt (eq_some_of_found hpart)
        exact H.entries? hv hentries (name, part) hmem
      · cases hpart

theorem steps (H : Markable P) {steps : List Step} (hv : P v) (hsteps : ∀ s ∈ steps, s.Writes P)
    (h : v.steps steps = .ok r) : P r := by
  induction steps generalizing v with
  | nil =>
    cases h
    exact hv
  | cons s rest ih =>
    obtain ⟨hs, hrest⟩ := List.forall_mem_cons.1 hsteps
    obtain ⟨part, hpart, h⟩ := bind_eq_ok.1 h
    refine ih ?_ hrest h
    cases s with
    | attr span name => exact H.attr hv hpart
    | index span key => exact H.element hv hs hpart

theorem stepsOfEach (H : Markable P) {each : List Step} {vs rs : List Value}
    (hvs : ∀ v ∈ vs, P v) (heach : ∀ s ∈ each, s.Writes P) (h : stepsOfEach each vs = .ok rs) :
    ∀ r ∈ rs, P r := by
  induction vs generalizing rs with
  | nil =>
    cases h
    exact nofun
  | cons v vs ih =>
    obtain ⟨hv, hvs⟩ := List.forall_mem_cons.1 hvs
    obtain ⟨part, hpart, h⟩ := bind_eq_ok.1 h
    obtain ⟨parts, hparts, h⟩ := bind_eq_ok.1 h
    cases h
    exact List.forall_mem_cons.2 ⟨H.steps hv heach hpart, ih hvs hparts⟩

theorem splat (H : Markable P) {each : List Step} (hv : P v) (heach : ∀ s ∈ each, s.Writes P)
    (h : v.splat each = .ok r) : P r := by
  obtain ⟨parts, hparts, rfl⟩ := map_eq_ok.1 h
  refine H.markIf _ ?_
  replace hv := H.unmarked hv
  generalize v.unmarked = u at hv hparts
  have hsingle (h : (u.steps each).map (fun part => Value.tuple [part]) = .ok parts) :
      P parts := by
    obtain ⟨part, hpart, rfl⟩ := map_eq_ok.1 h
    exact H.tuple.2 (List.forall_mem_singleton.2 (H.steps hv heach hpart))
  have hseveral {items : List Value} (hitems : ∀ x ∈ items, P x)
      (h : (Value.stepsOfEach each items).map Value.tuple = .ok parts) : P parts := by
    obtain ⟨rs, hrs, rfl⟩ := map_eq_ok.1 h
    exact H.tuple.2 (H.stepsOfEach hitems heach hrs)
  cases u with
  | null t =>
    cases hparts
    exact H.tuple.2 nofun
  | unknown t =>
    cases hparts
    exact H.unknown _ hv
  | list e items => exact hseveral (H.list.1 hv) hparts
  | set e items => exact hseveral (H.set.1 hv) hparts
  | tuple items => exact hseveral (H.tuple.1 hv) hparts
  | _ => exact hsingle hparts

theorem indexed (H : Markable P) {items : List Value} (h : ∀ v ∈ items, P v) :
    ∀ start, ∀ p ∈ indexed start items, P p.1 ∧ P p.2 := by
  induction items with
  | nil => exact fun _ => nofun
  | cons v vs ih =>
    obtain ⟨hv, hvs⟩ := List.forall_mem_cons.1 h
    exact fun start => List.forall_mem_cons.2 ⟨⟨H.number _, hv⟩, ih hvs (start + 1)⟩

theorem iterated? (H : Markable P) {pairs : List (Value × Value)} (hv : P v)
    (h : v.iterated? = some pairs) : ∀ p ∈ pairs, P p.1 ∧ P p.2 := by
  have hnamed {entries : Fields Value} (hentries : ∀ p ∈ entries, P p.2) :
      ∀ p ∈ entries.map fun e => (string e.1, e.2), P p.1 ∧ P p.2 := by
    intro p hp
    obtain ⟨e, he, rfl⟩ := List.mem_map.1 hp
    exact ⟨H.string _, hentries e he⟩
  cases v with
  | set e items =>
    cases h
    intro p hp
    obtain ⟨u, hu, rfl⟩ := List.mem_map.1 hp
    exact ⟨H.set.1 hv u hu, H.set.1 hv u hu⟩
  | list e items =>
    cases h
    exact H.indexed (H.list.1 hv) 0
  | tuple items =>
    cases h
    exact H.indexed (H.tuple.1 hv) 0
  | map e entries =>
    cases h
    exact hnamed (H.map.1 hv)
  | object attrs =>
    cases h
    exact hnamed (H.object.1 hv)
  | _ => cases h

end Markable

/-! What values are read as. -/

/-- The value is of the primitive type and not null. -/
inductive OfPrimitive : Ty → Value → Prop
  | bool (b : Bool) : OfPrimitive .bool (.bool b)
  | number (n : Number) : OfPrimitive .number (.number n)
  | string (s : String) : OfPrimitive .string (.string s)
  | unknown (t : Ty) : OfPrimitive t (.unknown t)

theorem ofPrimitive_of_convertPrimitive {want : Ty} (hwant : want.isPrimitive = true)
    (h : convertPrimitive v want = .ok r) : OfPrimitive want r := by
  rcases convertPrimitive_cases h with ⟨rfl, -⟩ | ⟨rfl, b, rfl⟩ | ⟨rfl, n, rfl⟩ | ⟨rfl, s, rfl⟩
  · cases hwant
  · exact .bool b
  · exact .number n
  · exact .string s

/-- A value that is not null is converted to a truth value, a number or a text, unless it is
unknown. -/
theorem ofPrimitive_of_convert {want : Ty} (hwant : want.isPrimitive = true)
    (hnull : v.bare.isNull = false) (h : v.bare.convert want = .ok r) : OfPrimitive want r := by
  have hm := isMarked_of_hasMark (hasMark_bare v)
  generalize v.bare = u at hm hnull h
  cases u with
  | sensitive u => cases hm
  | null t => cases hnull
  | unknown t =>
    have hne : want ≠ .dynamic := by
      rintro rfl
      cases hwant
    rw [convert, if_neg (by simpa using hne)] at h
    split at h
    · cases h
      exact .unknown want
    · cases h
  | bool b => exact ofPrimitive_of_convertPrimitive hwant h
  | number n => exact ofPrimitive_of_convertPrimitive hwant h
  | string s => exact ofPrimitive_of_convertPrimitive hwant h
  | _ =>
    cases want with
    | bool => cases h
    | number => cases h
    | string => cases h
    | _ => cases hwant

/-- Whether two values are equal is open only where something is unknown. -/
theorem Markable.unknown_of_equal? (H : Markable P) (hv : P v) (hw : P w)
    (h : equal? v w = none) (u : Ty) : P (.unknown u) := by
  by_contra hunknown
  have hknown {x : Value} (hx : P x) : x.bare.isWhollyKnown = true := by
    by_contra hx'
    exact hunknown (H.unknown_of_isWhollyKnown _ (H.bare x hx) (Bool.eq_false_iff.2 hx') u)
  have hkv := isKnown_of_isWhollyKnown (hknown hv)
  have hkw := isKnown_of_isWhollyKnown (hknown hw)
  simp only [equal?, hknown hv, hknown hw, hkv, hkw, Bool.and_self, if_true, Bool.not_true,
    Bool.or_self, Bool.false_eq_true, if_false] at h
  split at h
  · cases h
  · split at h <;> cases h

end Value

open Value

namespace Value.Markable

variable {P : Value → Prop} {v w o : Value} {want : Ty} {span lspan rspan : Span} {side : Side}

theorem operand (H : Markable P) (hwant : want.isPrimitive = true) (hv : P v)
    (h : Operator.operand v.bare want span side = .ok o) : OfPrimitive want o ∧ P o := by
  unfold Operator.operand at h
  split at h
  · cases h
  · next hnull =>
    split at h
    · next hconvert =>
      cases h
      exact ⟨ofPrimitive_of_convert hwant (Bool.eq_false_iff.2 hnull) hconvert,
        H.convert _ (H.bare v hv) hconvert⟩
    · cases h

theorem unary (H : Markable P) {op : UnaryOp} (hv : P v)
    (h : Operator.unary op v.bare span = .ok o) : P o := by
  cases op with
  | neg =>
    obtain ⟨x, hoperand, h⟩ := bind_eq_ok.1 h
    obtain ⟨hx, hPx⟩ := H.operand rfl hv hoperand
    cases hx with
    | number n =>
      cases h
      exact H.number _
    | unknown t =>
      cases h
      exact hPx
  | not =>
    obtain ⟨x, hoperand, h⟩ := bind_eq_ok.1 h
    obtain ⟨hx, hPx⟩ := H.operand rfl hv hoperand
    cases hx with
    | bool b =>
      cases h
      exact H.bool _
    | unknown t =>
      cases h
      exact hPx

theorem numeric (H : Markable P) {op : BinaryOp} {a b : Number}
    (h : Operator.numeric op a b span = .ok o) : P o := by
  cases op with
  | div =>
    simp only [Operator.numeric] at h
    split at h
    · cases h
      exact H.number _
    · cases h
  | mod =>
    simp only [Operator.numeric] at h
    split at h
    · cases h
      exact H.number _
    · cases h
  | add | sub | mul =>
    cases h
    exact H.number _
  | _ =>
    cases h
    exact H.bool _

theorem both (H : Markable P) {x y : Option Bool} (hx : x = none → P (.unknown .bool))
    (hy : y = none → P (.unknown .bool)) : P (Operator.both x y) := by
  rcases x with _ | _ | _ <;> rcases y with _ | _ | _ <;>
    first | exact H.bool _ | exact hx rfl | exact hy rfl

theorem either (H : Markable P) {x y : Option Bool} (hx : x = none → P (.unknown .bool))
    (hy : y = none → P (.unknown .bool)) : P (Operator.either x y) := by
  rcases x with _ | _ | _ <;> rcases y with _ | _ | _ <;>
    first | exact H.bool _ | exact hx rfl | exact hy rfl

theorem binary (H : Markable P) {op : BinaryOp} (hv : P v) (hw : P w)
    (h : Operator.binary op v.bare w.bare lspan rspan span = .ok o) : P o := by
  have hopen {x : Value} (hx : OfPrimitive .bool x ∧ P x) (hnone : x.bool? = none) :
      P (.unknown .bool) := by
    obtain ⟨hx, hPx⟩ := hx
    cases hx with
    | bool b => cases hnone
    | unknown t => exact hPx
  cases op with
  | eq =>
    cases hequal : equal? v.bare w.bare with
    | none =>
      simp only [Operator.binary, hequal] at h
      cases h
      exact H.unknown_of_equal? (H.bare v hv) (H.bare w hw) hequal _
    | some b =>
      simp only [Operator.binary, hequal] at h
      cases h
      exact H.bool _
  | ne =>
    cases hequal : equal? v.bare w.bare with
    | none =>
      simp only [Operator.binary, hequal] at h
      cases h
      exact H.unknown_of_equal? (H.bare v hv) (H.bare w hw) hequal _
    | some b =>
      simp only [Operator.binary, hequal] at h
      cases h
      exact H.bool _
  | and =>
    obtain ⟨a, hl, h⟩ := bind_eq_ok.1 h
    obtain ⟨b, hr, h⟩ := bind_eq_ok.1 h
    cases h
    exact H.both (hopen (H.operand rfl hv hl)) (hopen (H.operand rfl hw hr))
  | or =>
    obtain ⟨a, hl, h⟩ := bind_eq_ok.1 h
    obtain ⟨b, hr, h⟩ := bind_eq_ok.1 h
    cases h
    exact H.either (hopen (H.operand rfl hv hl)) (hopen (H.operand rfl hw hr))
  | _ =>
    obtain ⟨a, hl, h⟩ := bind_eq_ok.1 h
    obtain ⟨b, hr, h⟩ := bind_eq_ok.1 h
    obtain ⟨ha, hPa⟩ := H.operand rfl hv hl
    obtain ⟨hb, hPb⟩ := H.operand rfl hw hr
    cases ha with
    | unknown t =>
      cases h
      exact H.unknown _ hPa
    | number a =>
      cases hb with
      | unknown t =>
        cases h
        exact H.unknown _ hPb
      | number b => exact H.numeric h

end Value.Markable

end StaticConfig
