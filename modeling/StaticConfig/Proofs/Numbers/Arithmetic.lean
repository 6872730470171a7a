import StaticConfig.Builtin.Numbers
import StaticConfig.Eval.Operator
import StaticConfig.Proofs.Numbers.Nearest
import StaticConfig.Proofs.RoundTrip.Phrases

/-!
Arithmetic of whole numbers of 64 bits. Sums, differences, products and sizes are exact where they
fit a word, and doubles elsewhere. Quotients and remainders fail only for the divisor zero; a
quotient is exact where it is a whole number that fits, and the quotient of doubles elsewhere.
-/
namespace StaticConfig.Number

/-- The number is the whole number `i`, exact if `i` fits a word, and a double otherwise. -/
structure Exactly (x : Number) (i : Int) : Prop where
  int_iff (n : Int64) : x = int n ↔ n.toInt = i
  float_iff : (∃ f, x = float f) ↔ i < Int64.minValue.toInt ∨ Int64.maxValue.toInt < i

/-- The quotient of two words is exact if it is a whole number that fits a word, and otherwise the
quotient of the doubles nearest to them. -/
structure IsQuotient (a b : Int64) (x : Except NumberError Number) : Prop where
  fails_iff : (∃ e, x = .error e) ↔ b = 0
  exact_iff : (∃ q : Int64, x = .ok (int q) ∧ q.toInt * b.toInt = a.toInt) ↔
    b ≠ 0 ∧ b.toInt ∣ a.toInt ∧ ¬(a = Int64.minValue ∧ b = -1)
  rounded : b ≠ 0 → ¬(b.toInt ∣ a.toInt ∧ ¬(a = Int64.minValue ∧ b = -1)) →
    x = .ok (ofFloat (Double.ofInt a.toInt / Double.ofInt b.toInt))
  least : a = Int64.minValue → b = -1 → ∃ f, x = .ok (float f)

/-- The remainder of two words is that of their quotient rounded towards zero. -/
structure IsRemainder (a b : Int64) (x : Except NumberError Number) : Prop where
  fails_iff : (∃ e, x = .error e) ↔ b = 0
  truncated : b ≠ 0 → ∃ r : Int64, x = .ok (int r) ∧ r.toInt = a.toInt.tmod b.toInt
  least : a = Int64.minValue → b = -1 → x = .ok (int 0)

section Exact

variable (n : Int64) (i : Int) (f : Float)

theorem exactly_int : Exactly (int n) n.toInt := by
  have hleast := Int64.minValue_le_toInt n
  have hgreatest := Int64.toInt_le n
  refine ⟨fun m => ?_, ⟨fun ⟨_, h⟩ => Number.noConfusion h, fun h => absurd h ?_⟩⟩
  · rw [int.injEq, Int64.toInt_inj]
    exact ⟨Eq.symm, Eq.symm⟩
  · omega

theorem exactly_ofExact : Exactly (ofExact i f) i := by
  have hleast : Int64.minValue.toInt = -0x8000000000000000 := rfl
  have hgreatest : Int64.maxValue.toInt = 0x7fffffffffffffff := rfl
  rw [ofExact]
  split
  · next hfits =>
    simpa only [Text.toInt_ofInt_of_fitsWord hfits] using exactly_int (Int64.ofInt i)
  · next hfits =>
    rw [Text.fitsWord_iff] at hfits
    refine ⟨fun n => ⟨fun h => Number.noConfusion h, fun h => ?_⟩,
      ⟨fun _ => by omega, fun _ => ⟨f, rfl⟩⟩⟩
    have hlow := n.le_toInt
    have hhigh := n.toInt_lt
    omega

theorem exactly_abs : Exactly (abs (int n)) n.toInt.natAbs := by
  rw [abs]
  split
  · next hneg =>
    have hsize : (n.toInt.natAbs : Int) = -n.toInt := by omega
    rw [hsize]
    exact exactly_ofExact _ _
  · next hneg =>
    have hsize : (n.toInt.natAbs : Int) = n.toInt := by omega
    rw [hsize]
    exact exactly_int n

end Exact

section Division

variable {a b : Int64}

theorem isZero_int : (int b).isZero = true ↔ b = 0 := by
  constructor
  · intro h
    obtain ⟨k, hwhole, hk⟩ := Double.exists_isWhole_ofInt b
    have hzero : k = 0 := hwhole.eq_zero h
    have hhidden : Double.hiddenBit = 2 ^ 52 := rfl
    have hint : b.toInt = (0 : Int64).toInt := by
      rw [Int64.toInt_zero]
      omega
    exact Int64.toInt_inj.1 hint
  · rintro rfl
    rfl

theorem toInt_div (h : ¬(a = Int64.minValue ∧ b = -1)) :
    (a / b).toInt = a.toInt.tdiv b.toInt := by
  by_cases ha : a = Int64.minValue
  · exact Int64.toInt_div_of_ne_right a b fun hb => h ⟨ha, hb⟩
  · exact Int64.toInt_div_of_ne_left a b ha

/-- All quotients of words but one fit a word. -/
theorem fitsWord_tdiv_iff :
    Text.fitsWord (a.toInt.tdiv b.toInt) ↔ ¬(a = Int64.minValue ∧ b = -1) := by
  constructor
  · rintro hfits ⟨rfl, rfl⟩
    exact absurd hfits (by decide)
  · intro h
    rw [← toInt_div h]
    exact Text.fitsWord_toInt _

theorem div_int_zero : div (int a) (int 0) = .error .divisionByZero := if_pos (isZero_int.2 rfl)

theorem mod_int_zero : mod (int a) (int 0) = .error .modulusByZero := if_pos (isZero_int.2 rfl)

theorem div_exact (hb : b ≠ 0) (hdvd : b.toInt ∣ a.toInt)
    (h : ¬(a = Int64.minValue ∧ b = -1)) : div (int a) (int b) = .ok (int (a / b)) := by
  rw [div, if_neg (mt isZero_int.1 hb)]
  dsimp only
  rw [if_pos ⟨Int.tmod_eq_zero_of_dvd hdvd, fitsWord_tdiv_iff.2 h⟩, ← toInt_div h,
    Int64.ofInt_toInt]

theorem div_rounded (hb : b ≠ 0)
    (h : ¬(b.toInt ∣ a.toInt ∧ ¬(a = Int64.minValue ∧ b = -1))) :
    div (int a) (int b) =
      .ok (ofFloat (Double.ofInt a.toInt / Double.ofInt b.toInt)) := by
  rw [div, if_neg (mt isZero_int.1 hb)]
  dsimp only
  rw [Int.dvd_iff_tmod_eq_zero, ← fitsWord_tdiv_iff] at h
  rw [if_neg h, toFloat, toFloat]

theorem div_least : div (int Int64.minValue) (int (-1)) = .ok (float (Double.ofInt (2 ^ 63))) := by
  rfl

theorem ne_zero_of_div {x : Number} (h : div (int a) (int b) = .ok x) : b ≠ 0 := by
  rintro rfl
  rw [div_int_zero] at h
  cases h

/-- The one quotient that does not fit is a double. -/
theorem not_least_of_div {q : Int64} (h : div (int a) (int b) = .ok (int q)) :
    ¬(a = Int64.minValue ∧ b = -1) := by
  rintro ⟨rfl, rfl⟩
  rw [div_least] at h
  cases h

theorem mod_int (hb : b ≠ 0) : mod (int a) (int b) = .ok (int (a % b)) := by
  rw [mod, if_neg (mt isZero_int.1 hb), ← Int64.toInt_mod, Int64.ofInt_toInt]

theorem isQuotient_div : IsQuotient a b (div (int a) (int b)) where
  fails_iff := by
    constructor
    · rintro ⟨e, he⟩
      by_contra hb
      by_cases h : b.toInt ∣ a.toInt ∧ ¬(a = Int64.minValue ∧ b = -1)
      · rw [div_exact hb h.1 h.2] at he
        cases he
      · rw [div_rounded hb h] at he
        cases he
    · rintro rfl
      exact ⟨_, div_int_zero⟩
  exact_iff := by
    constructor
    · rintro ⟨q, hq, hmul⟩
      exact ⟨ne_zero_of_div hq, ⟨q.toInt, by rw [← hmul, Int.mul_comm]⟩, not_least_of_div hq⟩
    · rintro ⟨hb, hdvd, h⟩
      refine ⟨a / b, div_exact hb hdvd h, ?_⟩
      rw [toInt_div h, Int.tdiv_mul_cancel hdvd]
  rounded := div_rounded
  least := by
    rintro rfl rfl
    exact ⟨_, div_least⟩

theorem isRemainder_mod : IsRemainder a b (mod (int a) (int b)) where
  fails_iff := by
    constructor
    · rintro ⟨e, he⟩
      by_contra hb
      rw [mod_int hb] at he
      cases he
    · rintro rfl
      exact ⟨_, mod_int_zero⟩
  truncated hb := ⟨a % b, mod_int hb, Int64.toInt_mod a b⟩
  least := by
    rintro rfl rfl
    rfl

/-- An exact quotient and the remainder give the dividend back. -/
theorem mul_add_eq {q r : Int64} (hdvd : b.toInt ∣ a.toInt)
    (hq : div (int a) (int b) = .ok (int q)) (hr : mod (int a) (int b) = .ok (int r)) :
    a.toInt = q.toInt * b.toInt + r.toInt := by
  have hb := ne_zero_of_div hq
  have hfits := not_least_of_div hq
  rw [div_exact hb hdvd hfits] at hq
  rw [mod_int hb] at hr
  cases hq
  cases hr
  rw [toInt_div hfits, Int64.toInt_mod, Int.tdiv_mul_add_tmod]

end Division

theorem binary_numbers {op : BinaryOp} (hop : op ∈ [BinaryOp.add, .sub, .mul, .div, .mod])
    (x y : Number) (lspan rspan span : Span) :
    Operator.binary op (.number x) (.number y) lspan rspan span =
      Operator.numeric op x y span := by
  simp only [List.mem_cons, List.not_mem_nil, or_false] at hop
  rcases hop with rfl | rfl | rfl | rfl | rfl <;> rfl

/-- Arithmetic of words never wraps: results are exact where they fit a word, and doubles elsewhere.
Operators and the function for sizes compute the same. -/
theorem arithmetic_exact (a b : Int64) :
    Exactly (add (int a) (int b)) (a.toInt + b.toInt) ∧
      Exactly (sub (int a) (int b)) (a.toInt - b.toInt) ∧
      Exactly (mul (int a) (int b)) (a.toInt * b.toInt) ∧
      Exactly (neg (int a)) (-a.toInt) ∧ Exactly (abs (int a)) a.toInt.natAbs ∧
      IsQuotient a b (div (int a) (int b)) ∧ IsRemainder a b (mod (int a) (int b)) ∧
      (∀ q r : Int64, b.toInt ∣ a.toInt → div (int a) (int b) = .ok (int q) →
        mod (int a) (int b) = .ok (int r) → a.toInt = q.toInt * b.toInt + r.toInt) ∧
      (∀ op ∈ [BinaryOp.add, .sub, .mul, .div, .mod], ∀ lspan rspan span,
        Operator.binary op (.number (.int a)) (.number (.int b)) lspan rspan span =
          Operator.numeric op (.int a) (.int b) span) ∧
      (∀ span, Operator.unary .neg (.number (.int a)) span = .ok (.number (neg (int a)))) ∧
      Builtin.Numbers.abs (.number (.int a)) = .ok (.number (abs (int a))) :=
  ⟨exactly_ofExact _ _, exactly_ofExact _ _, exactly_ofExact _ _, exactly_ofExact _ _,
    exactly_abs a, isQuotient_div, isRemainder_mod, fun _ _ => mul_add_eq,
    fun _ hop => binary_numbers hop _ _, fun _ => rfl, rfl⟩

/-- A quotient that is no whole number, of which the quotient of doubles is one. -/
theorem div_inexact_int :
    div (int 9007199254740993) (int 2) = .ok (int (9007199254740993 / 2)) ∧
      ¬(2 : Int64).toInt ∣ (9007199254740993 : Int64).toInt :=
  ⟨by rfl, by decide⟩

end StaticConfig.Number
