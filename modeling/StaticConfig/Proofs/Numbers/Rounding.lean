import StaticConfig.Builtin.Numbers
import StaticConfig.Proofs.Numbers.Nearest

/-!
Rounding down and up. Both go through the double nearest to a number, and make it exact again within
a limit. So a whole double is kept, and a whole number of 64 bits only within that limit.
-/
namespace StaticConfig

namespace Number

open Double (IsWhole)

/-- The whole number that a number is, in whichever of the two forms. -/
def toWhole? : Number → Option Int
  | int n => some n.toInt
  | float f => Double.toInt? f

section Limit

variable {f : Float} {n : Int64}

theorem whole?_eq_some_iff :
    whole? f = some n ↔ Double.toInt? f = some n.toInt ∧ n.toInt.natAbs ≤ exactLimit := by
  have hlimit : exactLimit = 2 ^ 53 := rfl
  rw [whole?]
  constructor
  · intro h
    split at h
    · next i hi =>
      split at h
      · next hle =>
        have hword : (Int64.ofInt i).toInt = i :=
          Int64.toInt_ofInt_of_le (by omega) (by omega)
        cases h
        rw [hword]
        exact ⟨hi, hle⟩
      · cases h
    · cases h
  · rintro ⟨hf, hle⟩
    simp only [hf, if_pos hle, Int64.ofInt_toInt]

theorem ofFloat_eq_int_iff : ofFloat f = int n ↔ whole? f = some n := by
  rw [ofFloat]
  cases whole? f with
  | none => simp
  | some m => simp

/-- Making a double exact does not change the whole number that it is. -/
theorem toWhole?_ofFloat (f : Float) : (ofFloat f).toWhole? = Double.toInt? f := by
  rw [ofFloat]
  cases hwhole : whole? f with
  | none => rfl
  | some n => exact (whole?_eq_some_iff.1 hwhole).1.symm

/-- A word is the double nearest to it, made exact, only within the limit. -/
theorem ofFloat_ofInt_iff (n : Int64) :
    ofFloat (Double.ofInt n.toInt) = int n ↔ n.toInt.natAbs ≤ exactLimit := by
  rw [ofFloat_eq_int_iff, whole?_eq_some_iff]
  exact ⟨fun h => h.2, fun h => ⟨Double.toInt?_ofInt h, h⟩⟩

end Limit

section Rounding

variable {f : Float} {negative : Bool} {n : Nat}

theorem floor_float (h : IsWhole f negative n) : floor (float f) = ofFloat f :=
  congrArg ofFloat (h.roundMagnitude_eq id)

theorem ceil_float (h : IsWhole f negative n) : ceil (float f) = ofFloat f :=
  congrArg ofFloat (h.roundMagnitude_eq not)

theorem floor_int (n : Int64) : floor (int n) = ofFloat (Double.ofInt n.toInt) := by
  obtain ⟨_, hwhole, -⟩ := Double.exists_isWhole_ofInt n
  exact floor_float hwhole

theorem ceil_int (n : Int64) : ceil (int n) = ofFloat (Double.ofInt n.toInt) := by
  obtain ⟨_, hwhole, -⟩ := Double.exists_isWhole_ofInt n
  exact ceil_float hwhole

end Rounding

end Number

namespace Builtin.Numbers

open Number

/-- Rounding keeps a whole number of 64 bits exactly within the limit up to which all whole numbers
are doubles, and makes it the double nearest to it beyond. A whole double is kept as the number that
it is. -/
theorem floor_ceil_whole (n : Int64) {f : Float} {i : Int} (h : Double.toInt? f = some i) :
    (Number.floor (int n) = int n ↔ n.toInt.natAbs ≤ exactLimit) ∧
      (Number.ceil (int n) = int n ↔ n.toInt.natAbs ≤ exactLimit) ∧
      Number.floor (int n) = ofFloat (Double.ofInt n.toInt) ∧
      Number.ceil (int n) = ofFloat (Double.ofInt n.toInt) ∧
      Number.floor (float f) = ofFloat f ∧ Number.ceil (float f) = ofFloat f ∧
      (ofFloat f).toWhole? = some i ∧
      ∀ x : Number, floor (.number x) = .ok (.number x.floor) ∧
        ceil (.number x) = .ok (.number x.ceil) := by
  obtain ⟨_, _, hwhole⟩ := Double.isWhole_of_toInt? h
  have hexact : (ofFloat f).toWhole? = some i := by rw [toWhole?_ofFloat, h]
  rw [floor_int, ceil_int, floor_float hwhole, ceil_float hwhole]
  exact ⟨ofFloat_ofInt_iff n, ofFloat_ofInt_iff n, rfl, rfl, rfl, rfl, hexact,
    fun _ => ⟨rfl, rfl⟩⟩

/-- The last whole number that is kept, beside a double that no word holds. -/
theorem floor_ceil_whole_limit :
    Double.toInt? (Double.ofInt (2 ^ 64)) = some (2 ^ 64) ∧
      Number.floor (int 9007199254740992) = int 9007199254740992 ∧
      (ofFloat (Double.ofInt (2 ^ 64))).toWhole? = some (2 ^ 64) := by
  have hdouble : Double.toInt? (Double.ofInt (2 ^ 64)) = some (2 ^ 64) := by decide +kernel
  obtain ⟨hfloor, -, -, -, -, -, hexact, -⟩ := floor_ceil_whole 9007199254740992 hdouble
  exact ⟨hdouble, hfloor.2 (by decide), hexact⟩

/-- Beyond the limit a whole number becomes another one, or a double. -/
theorem floor_ceil_beyond_limit :
    floor (.number (.int 9007199254740993)) = .ok (.number (.int 9007199254740992)) ∧
      ceil (.number (.int 9007199254740994)) =
        .ok (.number (.float (Double.ofInt 9007199254740994))) :=
  ⟨by rfl, by rfl⟩

end Builtin.Numbers

end StaticConfig
