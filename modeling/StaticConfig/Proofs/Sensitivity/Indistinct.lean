import StaticConfig.Proofs.Fields
import StaticConfig.Value.Marks

/-!
Values that look the same to a reader who may not see what is marked: they have the same parts,
except that a marked value may have any contents. Without marks such values are equal.
-/
namespace StaticConfig.Value

inductive Indistinct : Value → Value → Prop
  | sensitive {v w : Value} : Indistinct (.sensitive v) (.sensitive w)
  | null {t : Ty} : Indistinct (.null t) (.null t)
  | unknown {t : Ty} : Indistinct (.unknown t) (.unknown t)
  | bool {b : Bool} : Indistinct (.bool b) (.bool b)
  | number {n : Number} : Indistinct (.number n) (.number n)
  | string {s : String} : Indistinct (.string s) (.string s)
  | list {e : Ty} {vs ws : List Value} :
      List.Forall₂ Indistinct vs ws → Indistinct (.list e vs) (.list e ws)
  | set {e : Ty} {vs ws : List Value} :
      List.Forall₂ Indistinct vs ws → Indistinct (.set e vs) (.set e ws)
  | map {e : Ty} {as bs : List (String × Value)} :
      Fields.Related Indistinct as bs → Indistinct (.map e as) (.map e bs)
  | tuple {vs ws : List Value} :
      List.Forall₂ Indistinct vs ws → Indistinct (.tuple vs) (.tuple ws)
  | object {as bs : List (String × Value)} :
      Fields.Related Indistinct as bs → Indistinct (.object as) (.object bs)

namespace Indistinct

mutual

theorem refl : ∀ v : Value, Indistinct v v
  | .sensitive _ => .sensitive
  | .null _ => .null
  | .unknown _ => .unknown
  | .bool _ => .bool
  | .number _ => .number
  | .string _ => .string
  | .list _ items => .list (reflAll items)
  | .set _ items => .set (reflAll items)
  | .map _ entries => .map (reflFields entries)
  | .tuple items => .tuple (reflAll items)
  | .object attrs => .object (reflFields attrs)

theorem reflAll : ∀ vs : List Value, List.Forall₂ Indistinct vs vs
  | [] => .nil
  | v :: vs => .cons (refl v) (reflAll vs)

theorem reflFields : ∀ fields : List (String × Value), Fields.Related Indistinct fields fields
  | [] => .nil
  | (_, v) :: rest => .cons (refl v) (reflFields rest)

end

theorem isMarked_eq {v w : Value} (h : Indistinct v w) : v.isMarked = w.isMarked := by
  cases h <;> rfl

mutual

/-- A mark does not go unnoticed. -/
theorem hasMark_eq : ∀ {v w : Value}, Indistinct v w → v.hasMark = w.hasMark
  | _, _, .sensitive => rfl
  | _, _, .null => rfl
  | _, _, .unknown => rfl
  | _, _, .bool => rfl
  | _, _, .number => rfl
  | _, _, .string => rfl
  | _, _, .list h => by simpa only [hasMark] using anyMark_eq h
  | _, _, .set h => by simpa only [hasMark] using anyMark_eq h
  | _, _, .map h => by simpa only [hasMark] using anyFieldMark_eq h
  | _, _, .tuple h => by simpa only [hasMark] using anyMark_eq h
  | _, _, .object h => by simpa only [hasMark] using anyFieldMark_eq h

theorem anyMark_eq : ∀ {vs ws : List Value}, List.Forall₂ Indistinct vs ws →
    anyMark vs = anyMark ws
  | _, _, .nil => rfl
  | _, _, .cons h hs => by simp only [anyMark, hasMark_eq h, anyMark_eq hs]

theorem anyFieldMark_eq : ∀ {as bs : List (String × Value)}, Fields.Related Indistinct as bs →
    anyFieldMark as = anyFieldMark bs
  | _, _, .nil => rfl
  | _, _, .cons h hs => by simp only [anyFieldMark, hasMark_eq h, anyFieldMark_eq hs]

end

mutual

/-- Only marked parts may differ. -/
theorem eq_of_hasMark : ∀ {v w : Value}, Indistinct v w → v.hasMark = false → v = w
  | _, _, .sensitive, hm => by cases hm
  | _, _, .null, _ => rfl
  | _, _, .unknown, _ => rfl
  | _, _, .bool, _ => rfl
  | _, _, .number, _ => rfl
  | _, _, .string, _ => rfl
  | _, _, .list h, hm => by rw [eq_of_anyMark h hm]
  | _, _, .set h, hm => by rw [eq_of_anyMark h hm]
  | _, _, .map h, hm => by rw [eq_of_anyFieldMark h hm]
  | _, _, .tuple h, hm => by rw [eq_of_anyMark h hm]
  | _, _, .object h, hm => by rw [eq_of_anyFieldMark h hm]

theorem eq_of_anyMark : ∀ {vs ws : List Value}, List.Forall₂ Indistinct vs ws →
    anyMark vs = false → vs = ws
  | _, _, .nil, _ => rfl
  | _, _, .cons h hs, hm => by
    simp only [anyMark, Bool.or_eq_false_iff] at hm
    rw [eq_of_hasMark h hm.1, eq_of_anyMark hs hm.2]

theorem eq_of_anyFieldMark : ∀ {as bs : List (String × Value)}, Fields.Related Indistinct as bs →
    anyFieldMark as = false → as = bs
  | _, _, .nil, _ => rfl
  | _, _, .cons h hs, hm => by
    simp only [anyFieldMark, Bool.or_eq_false_iff] at hm
    rw [eq_of_hasMark h hm.1, eq_of_anyFieldMark hs hm.2]

end

end Indistinct

end StaticConfig.Value
