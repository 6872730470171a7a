import StaticConfig.Proofs.Numbers.Doubles

/-!
The double nearest to a quotient. A quotient that is a double is not rounded, so whole numbers of
up to 53 bits are kept. One of more bits becomes another whole number, which is not smaller than
the doubles below which all whole numbers are doubles.
-/
namespace StaticConfig.Double

section Scale

theorem scaleUp_pos (e : Int) : 0 < scaleUp e := Nat.two_pow_pos _

theorem scaleDown_pos (e : Int) : 0 < scaleDown e := Nat.two_pow_pos _

@[simp]
theorem scaleUp_natCast (k : Nat) : scaleUp k = 2 ^ k := by
  rw [scaleUp, Int.toNat_natCast]
  rfl

@[simp]
theorem scaleDown_natCast (k : Nat) : scaleDown k = 1 := by
  rw [scaleDown, Int.toNat_neg_natCast, Nat.pow_eq, Nat.pow_zero]

@[simp]
theorem scaleUp_neg_natCast (k : Nat) : scaleUp (-k) = 1 := by
  rw [scaleUp, Int.toNat_neg_natCast, Nat.pow_eq, Nat.pow_zero]

@[simp]
theorem scaleDown_neg_natCast (k : Nat) : scaleDown (-k) = 2 ^ k := by
  rw [scaleDown, Int.neg_neg, Int.toNat_natCast]
  rfl

/-- One exponent less doubles the factor of denominators or halves that of numerators. -/
theorem scale_pred (e : Int) :
    scaleDown (e - 1) * scaleUp e = 2 * (scaleDown e * scaleUp (e - 1)) := by
  simp only [scaleDown, scaleUp, Nat.pow_eq]
  by_cases he : 0 < e
  · have hup : e.toNat = (e - 1).toNat + 1 := by omega
    have hdown : (-(e - 1)).toNat = (-e).toNat := by omega
    rw [hup, hdown, Nat.pow_succ]
    ring
  · have hdown : (-(e - 1)).toNat = (-e).toNat + 1 := by omega
    have hup : (e - 1).toNat = e.toNat := by omega
    rw [hup, hdown, Nat.pow_succ]
    ring

theorem roundHalfEven_mul {den : Nat} (hden : 0 < den) (q : Nat) :
    roundHalfEven (q * den) den = q := by
  have hne : (2 * 0 == den) = false := beq_eq_false_iff_ne.2 (Nat.ne_of_lt hden)
  rw [roundHalfEven, Nat.mul_div_cancel q hden, Nat.mul_mod_left, hne]
  exact if_neg (by simp)

theorem roundHalfEven_bounds (num den : Nat) :
    num / den ≤ roundHalfEven num den ∧ roundHalfEven num den ≤ num / den + 1 := by
  rw [roundHalfEven]
  split
  · exact ⟨Nat.le_succ _, Nat.le_refl _⟩
  · exact ⟨Nat.le_refl _, Nat.le_succ _⟩

end Scale

section Quotient

variable {num den mantissa : Nat} {exponent : Int}

/-- The quotient is `mantissa * 2 ^ exponent`. -/
def Equals (num den mantissa : Nat) (exponent : Int) : Prop :=
  num * scaleDown exponent = mantissa * (den * scaleUp exponent)

namespace Equals

variable (h : Equals num den mantissa exponent)

include h

theorem size_le (hden : 0 < den) (hnum : 0 < num) {k : Nat} (hm : mantissa < 2 ^ k) :
    (num.log2 : Int) - den.log2 ≤ exponent + k := by
  have hlow : 2 ^ num.log2 ≤ num := Nat.log2_self_le (Nat.ne_of_gt hnum)
  have hhigh : den ≤ 2 ^ (den.log2 + 1) := Nat.le_of_lt Nat.lt_log2_self
  have hlt : 2 ^ (num.log2 + (-exponent).toNat) < 2 ^ (k + (den.log2 + 1 + exponent.toNat)) := by
    calc 2 ^ (num.log2 + (-exponent).toNat) = 2 ^ num.log2 * scaleDown exponent :=
          Nat.pow_add _ _ _
      _ ≤ num * scaleDown exponent := Nat.mul_le_mul_right _ hlow
      _ = mantissa * (den * scaleUp exponent) := h
      _ < 2 ^ k * (den * scaleUp exponent) :=
        Nat.mul_lt_mul_of_pos_right hm (Nat.mul_pos hden (scaleUp_pos _))
      _ ≤ 2 ^ k * (2 ^ (den.log2 + 1) * scaleUp exponent) :=
        Nat.mul_le_mul_left _ (Nat.mul_le_mul_right _ hhigh)
      _ = 2 ^ k * 2 ^ (den.log2 + 1 + exponent.toNat) := congrArg _ (Nat.pow_add _ _ _).symm
      _ = 2 ^ (k + (den.log2 + 1 + exponent.toNat)) := (Nat.pow_add _ _ _).symm
  have hexponents := (Nat.pow_lt_pow_iff_right (by decide)).1 hlt
  omega

theorem le_size (hden : 0 < den) {k : Nat} (hm : 2 ^ k ≤ mantissa) :
    exponent + k ≤ (num.log2 : Int) - den.log2 := by
  have hlow : 2 ^ den.log2 ≤ den := Nat.log2_self_le (Nat.ne_of_gt hden)
  have hlt : 2 ^ (k + (den.log2 + exponent.toNat)) < 2 ^ (num.log2 + 1 + (-exponent).toNat) := by
    calc 2 ^ (k + (den.log2 + exponent.toNat)) = 2 ^ k * 2 ^ (den.log2 + exponent.toNat) :=
          Nat.pow_add _ _ _
      _ = 2 ^ k * (2 ^ den.log2 * scaleUp exponent) := congrArg _ (Nat.pow_add _ _ _)
      _ ≤ mantissa * (den * scaleUp exponent) := Nat.mul_le_mul hm (Nat.mul_le_mul_right _ hlow)
      _ = num * scaleDown exponent := h.symm
      _ < 2 ^ (num.log2 + 1) * scaleDown exponent :=
        Nat.mul_lt_mul_of_pos_right Nat.lt_log2_self (scaleDown_pos _)
      _ = 2 ^ (num.log2 + 1 + (-exponent).toNat) := (Nat.pow_add _ _ _).symm
  have hexponents := (Nat.pow_lt_pow_iff_right (by decide)).1 hlt
  omega

theorem div_eq (hden : 0 < den) :
    num * scaleDown exponent / (den * scaleUp exponent) = mantissa := by
  rw [h, Nat.mul_div_cancel _ (Nat.mul_pos hden (scaleUp_pos _))]

/-- The same quotient with the exponent one less. -/
theorem pred : Equals num den (2 * mantissa) (exponent - 1) := by
  apply Nat.eq_of_mul_eq_mul_right (scaleUp_pos exponent)
  calc num * scaleDown (exponent - 1) * scaleUp exponent
      = num * (scaleDown (exponent - 1) * scaleUp exponent) := Nat.mul_assoc _ _ _
    _ = 2 * scaleUp (exponent - 1) * (num * scaleDown exponent) := by rw [scale_pred]; ring
    _ = 2 * scaleUp (exponent - 1) * (mantissa * (den * scaleUp exponent)) := congrArg _ h
    _ = 2 * mantissa * (den * scaleUp (exponent - 1)) * scaleUp exponent := by ring

end Equals

/-- The sizes of numerator and denominator leave two exponents to round with. This is the lower. -/
def lowExponent (num den : Nat) : Int :=
  max (num.log2 - den.log2 - 53) minExponent

/-- The exponent that the quotient is rounded with. -/
def roundingExponent (num den : Nat) : Int :=
  let low := lowExponent num den
  if num * scaleDown low / (den * scaleUp low) < 2 * hiddenBit then low else low + 1

theorem nearest_eq (hnum : 0 < num) (he : roundingExponent num den = exponent)
    (hm : roundHalfEven (num * scaleDown exponent) (den * scaleUp exponent) = mantissa)
    (hlt : position mantissa exponent < 2047 * hiddenBit) (negative : Bool) :
    nearest negative num den = ofBits negative (position mantissa exponent) := by
  subst he hm
  rw [nearest, if_neg (Nat.ne_of_gt hnum)]
  exact if_neg (Nat.not_le.2 hlt)

namespace Canonical

variable (h : Canonical mantissa exponent)

include h

theorem roundingExponent_eq (hden : 0 < den) (hnum : 0 < num)
    (hvalue : Equals num den mantissa exponent) : roundingExponent num den = exponent := by
  have hhidden : hiddenBit = 2 ^ 52 := rfl
  have hlow : lowExponent num den = max ((num.log2 : Int) - den.log2 - 53) minExponent := rfl
  have hmantissa := h.mantissa_lt
  have hleast := h.least
  have hupper := hvalue.size_le hden hnum (k := 53) (by omega)
  rw [roundingExponent]
  by_cases heq : lowExponent num den = exponent
  · rw [heq, hvalue.div_eq hden, if_pos hmantissa]
  · have hnormal : hiddenBit ≤ mantissa := by
      by_contra hsmall
      have hexponent := h.normal (Nat.not_le.1 hsmall)
      omega
    have hlower := hvalue.le_size hden (k := 52) (by omega)
    have hpred : lowExponent num den = exponent - 1 := by omega
    rw [hpred, hvalue.pred.div_eq hden, if_neg (by omega)]
    omega

/-- A quotient that is a double is not rounded. -/
theorem nearest_eq (hden : 0 < den) (hnum : 0 < num) (hvalue : Equals num den mantissa exponent)
    (negative : Bool) :
    nearest negative num den = ofBits negative (position mantissa exponent) := by
  refine Double.nearest_eq hnum (h.roundingExponent_eq hden hnum hvalue) ?_ h.position_lt negative
  rw [hvalue, roundHalfEven_mul (Nat.mul_pos hden (scaleUp_pos _))]

end Canonical

end Quotient

/-!
Doubles that are whole numbers. These are not changed by rounding to a whole number, nor by finding
the double nearest to them.
-/

/-- The double is the whole number `n`, or its negative. -/
def IsWhole (f : Float) (negative : Bool) (n : Nat) : Prop :=
  ∃ mantissa exponent, parts f = .finite negative mantissa exponent ∧ Equals n 1 mantissa exponent

section Whole

variable {f : Float} {negative : Bool} {mantissa n k : Nat} {exponent i : Int}

theorem position_zero (h : Canonical 0 exponent) : position 0 exponent = 0 := by
  rw [position, h.normal (Nat.two_pow_pos 52)]
  rfl

theorem position_carry (h : minExponent ≤ exponent) :
    position (2 * hiddenBit) exponent = position hiddenBit (exponent + 1) := by
  have hsteps : (exponent + 1 - minExponent).toNat = (exponent - minExponent).toNat + 1 := by omega
  rw [position, position, hsteps]
  ring

theorem Equals.whole (h : Equals n 1 mantissa exponent) :
    mantissa * scaleUp exponent = n * scaleDown exponent := by
  rw [h, Nat.one_mul]

theorem IsWhole.nearest_eq (h : IsWhole f negative n) : nearest negative n 1 = f := by
  obtain ⟨mantissa, exponent, hparts, hvalue⟩ := h
  obtain ⟨hcanonical, rfl⟩ := canonical_of_parts hparts
  by_cases hn : n = 0
  · subst hn
    have hzero : mantissa * scaleUp exponent = 0 := hvalue.whole.trans (Nat.zero_mul _)
    obtain rfl : mantissa = 0 :=
      (Nat.mul_eq_zero.1 hzero).resolve_right (Nat.ne_of_gt (scaleUp_pos _))
    rw [position_zero hcanonical, nearest, if_pos rfl]
  · exact hcanonical.nearest_eq Nat.one_pos (Nat.pos_of_ne_zero hn) hvalue negative

theorem IsWhole.roundMagnitude_eq (h : IsWhole f negative n) (away : Bool → Bool) :
    roundMagnitude away f = f := by
  have hnearest := h.nearest_eq
  obtain ⟨mantissa, exponent, hparts, hvalue⟩ := h
  rw [roundMagnitude, hparts]
  simp only [ratio, hvalue.whole, Nat.mul_div_cancel _ (scaleDown_pos exponent), Nat.mul_mod_left]
  simpa using hnearest

theorem toInt?_of_parts (h : parts f = .finite negative mantissa exponent) :
    toInt? f = if mantissa * scaleUp exponent % scaleDown exponent = 0 then
        some (if negative then -((mantissa * scaleUp exponent / scaleDown exponent : Nat) : Int)
          else (mantissa * scaleUp exponent / scaleDown exponent : Nat))
      else none := by
  rw [toInt?, h]
  rfl

theorem IsWhole.toInt?_eq (h : IsWhole f negative n) :
    toInt? f = some (if negative then -(n : Int) else n) := by
  obtain ⟨mantissa, exponent, hparts, hvalue⟩ := h
  rw [toInt?_of_parts hparts, hvalue.whole, Nat.mul_mod_left, if_pos rfl,
    Nat.mul_div_cancel _ (scaleDown_pos exponent)]

theorem isWhole_of_toInt? (h : toInt? f = some i) : ∃ negative n, IsWhole f negative n := by
  cases hparts : parts f with
  | nan =>
    rw [toInt?, hparts] at h
    cases h
  | infinite negative =>
    rw [toInt?, hparts] at h
    cases h
  | finite negative m e =>
    rw [toInt?_of_parts hparts] at h
    split at h
    · next hdvd =>
      refine ⟨negative, m * scaleUp e / scaleDown e, m, e, hparts, ?_⟩
      rw [Equals, Nat.one_mul, Nat.div_mul_cancel (Nat.dvd_of_mod_eq_zero hdvd)]
    · cases h

/-- A whole number of up to 53 bits, or the next one, in the form that doubles have. -/
theorem exists_canonical (hpos : 0 < n) (hn : n ≤ 2 * hiddenBit) :
    ∃ mantissa exponent, Canonical mantissa exponent ∧ Equals n 1 mantissa exponent := by
  have hhidden : hiddenBit = 2 ^ 52 := rfl
  have hmin : minExponent = -1074 := rfl
  by_cases hfull : n = 2 * hiddenBit
  · refine ⟨hiddenBit, (1 : Nat), ⟨by omega, fun h => absurd h (Nat.lt_irrefl _), by omega,
      by omega⟩, ?_⟩
    rw [Equals, scaleDown_natCast, scaleUp_natCast, hfull]
    ring
  have hsize : n.log2 < 53 := (Nat.log2_lt (Nat.ne_of_gt hpos)).2 (by omega)
  have hlow : 2 ^ n.log2 ≤ n := Nat.log2_self_le (Nat.ne_of_gt hpos)
  have hhigh : n < 2 ^ (n.log2 + 1) := Nat.lt_log2_self
  obtain ⟨k, hk⟩ : ∃ k, n.log2 + k = 52 := ⟨52 - n.log2, by omega⟩
  have hleast : hiddenBit ≤ n * 2 ^ k := by
    rw [hhidden, ← hk, Nat.pow_add]
    exact Nat.mul_le_mul_right _ hlow
  have hgreatest : n * 2 ^ k < 2 * hiddenBit := by
    calc n * 2 ^ k < 2 ^ (n.log2 + 1) * 2 ^ k :=
          Nat.mul_lt_mul_of_pos_right hhigh (Nat.two_pow_pos k)
      _ = 2 * 2 ^ (n.log2 + k) := by ring
      _ = 2 * hiddenBit := by rw [hk, hhidden]
  refine ⟨n * 2 ^ k, -(k : Int), ⟨hgreatest, by omega, by omega, by omega⟩, ?_⟩
  rw [Equals, scaleDown_neg_natCast, scaleUp_neg_natCast, Nat.mul_one]

theorem isWhole_nearest (hn : n ≤ 2 * hiddenBit) (negative : Bool) :
    IsWhole (nearest negative n 1) negative n := by
  by_cases hzero : n = 0
  · subst hzero
    have hcanonical : Canonical 0 minExponent :=
      ⟨by decide, fun _ => rfl, Int.le_refl _, by decide⟩
    have hparts := hcanonical.parts_ofBits negative
    rw [position_zero hcanonical] at hparts
    rw [nearest, if_pos rfl]
    exact ⟨0, minExponent, hparts, (Nat.zero_mul _).trans (Nat.zero_mul _).symm⟩
  · have hpos := Nat.pos_of_ne_zero hzero
    obtain ⟨mantissa, exponent, hcanonical, hvalue⟩ := exists_canonical hpos hn
    rw [hcanonical.nearest_eq Nat.one_pos hpos hvalue]
    exact ⟨mantissa, exponent, hcanonical.parts_ofBits negative, hvalue⟩

theorem Canonical.isWhole (h : Canonical mantissa k) (negative : Bool) :
    IsWhole (ofBits negative (position mantissa k)) negative (mantissa * 2 ^ k) := by
  refine ⟨mantissa, k, h.parts_ofBits negative, ?_⟩
  rw [Equals, scaleDown_natCast, scaleUp_natCast, Nat.one_mul, Nat.mul_one]

/-- A whole number of more than 53 bits is rounded to 53 bits, or up to a power of two. -/
theorem rounding_of_log2 (h : n.log2 = 52 + (k + 1)) :
    roundingExponent n 1 = (k + 1 : Nat) ∧ hiddenBit ≤ roundHalfEven n (2 ^ (k + 1)) ∧
      roundHalfEven n (2 ^ (k + 1)) ≤ 2 * hiddenBit := by
  have hhidden : hiddenBit = 2 ^ 52 := rfl
  have hmin : minExponent = -1074 := rfl
  have hone : (1 : Nat).log2 = 0 := by decide
  have hne : n ≠ 0 := by
    rintro rfl
    rw [Nat.log2_zero] at h
    omega
  have hself : 2 ^ (52 + (k + 1)) ≤ n := h ▸ Nat.log2_self_le hne
  have hnext : n < 2 ^ (52 + (k + 1) + 1) := h ▸ Nat.lt_log2_self
  have hlowest : lowExponent n 1 = (k : Int) := by
    rw [lowExponent, hone, h]
    omega
  have hlarge : 2 * hiddenBit ≤ n / 2 ^ k := by
    rw [Nat.le_div_iff_mul_le (Nat.two_pow_pos k)]
    calc 2 * hiddenBit * 2 ^ k = 2 ^ (52 + (k + 1)) := by rw [hhidden]; ring
      _ ≤ n := hself
  have hleast : hiddenBit ≤ n / 2 ^ (k + 1) := by
    rw [Nat.le_div_iff_mul_le (Nat.two_pow_pos _), hhidden, ← Nat.pow_add]
    exact hself
  have hgreatest : n / 2 ^ (k + 1) < 2 * hiddenBit := by
    rw [Nat.div_lt_iff_lt_mul (Nat.two_pow_pos _)]
    calc n < 2 ^ (52 + (k + 1) + 1) := hnext
      _ = 2 * hiddenBit * 2 ^ (k + 1) := by rw [hhidden]; ring
  obtain ⟨hlow, hhigh⟩ := roundHalfEven_bounds n (2 ^ (k + 1))
  refine ⟨?_, by omega, by omega⟩
  rw [roundingExponent, hlowest, scaleDown_natCast, scaleUp_natCast, Nat.mul_one, Nat.one_mul,
    if_neg (by omega)]
  rfl

theorem exists_isWhole_nearest (hlow : 2 * hiddenBit ≤ n) (hhigh : n < 2 ^ 64) (negative : Bool) :
    ∃ k, IsWhole (nearest negative n 1) negative k ∧ 2 * hiddenBit ≤ k := by
  have hhidden : hiddenBit = 2 ^ 52 := rfl
  have hmin : minExponent = -1074 := rfl
  have hpos : 0 < n := by omega
  have hsize : 53 ≤ n.log2 := (Nat.le_log2 (Nat.ne_of_gt hpos)).2 (by omega)
  have hbits : n.log2 < 64 := (Nat.log2_lt (Nat.ne_of_gt hpos)).2 hhigh
  obtain ⟨k, hk⟩ : ∃ k, n.log2 = 52 + (k + 1) := ⟨n.log2 - 53, by omega⟩
  obtain ⟨hexponent, hleast, hgreatest⟩ := rounding_of_log2 hk
  have hround : roundHalfEven (n * scaleDown ((k + 1 : Nat) : Int))
      (1 * scaleUp ((k + 1 : Nat) : Int)) = roundHalfEven n (2 ^ (k + 1)) := by
    rw [scaleDown_natCast, scaleUp_natCast, Nat.mul_one, Nat.one_mul]
  by_cases hcarry : roundHalfEven n (2 ^ (k + 1)) < 2 * hiddenBit
  · have hcanonical : Canonical (roundHalfEven n (2 ^ (k + 1))) (k + 1 : Nat) :=
      ⟨hcarry, fun hsmall => absurd hsmall (by omega), by omega, by omega⟩
    rw [nearest_eq hpos hexponent hround hcanonical.position_lt]
    refine ⟨_, hcanonical.isWhole negative, ?_⟩
    calc 2 * hiddenBit = hiddenBit * 2 ^ 1 := Nat.mul_comm _ _
      _ ≤ roundHalfEven n (2 ^ (k + 1)) * 2 ^ (k + 1) :=
        Nat.mul_le_mul hleast (Nat.pow_le_pow_right (by decide) (by omega))
  · -- The mantissa was rounded up to the next power of two.
    have hfull : roundHalfEven n (2 ^ (k + 1)) = 2 * hiddenBit := by omega
    have hcanonical : Canonical hiddenBit (k + 2 : Nat) :=
      ⟨by decide, fun hsmall => absurd hsmall (Nat.lt_irrefl _), by omega, by omega⟩
    have hrange : minExponent ≤ (k + 1 : Nat) := by omega
    have hposition := position_carry hrange
    have hlt : position (2 * hiddenBit) (k + 1 : Nat) < 2047 * hiddenBit := by
      rw [hposition]
      exact hcanonical.position_lt
    rw [nearest_eq hpos hexponent (hround.trans hfull) hlt, hposition]
    refine ⟨_, hcanonical.isWhole negative, ?_⟩
    calc 2 * hiddenBit = hiddenBit * 2 ^ 1 := Nat.mul_comm _ _
      _ ≤ hiddenBit * 2 ^ (k + 2) :=
        Nat.mul_le_mul_left _ (Nat.pow_le_pow_right (by decide) (by omega))

/-- The double nearest to a word is a whole number, which is the word itself unless it has more than
53 bits. -/
theorem exists_isWhole_ofInt (n : Int64) : ∃ k,
    IsWhole (ofInt n.toInt) (decide (n.toInt < 0)) k ∧ min n.toInt.natAbs (2 * hiddenBit) ≤ k := by
  have hleast := n.le_toInt
  have hgreatest := n.toInt_lt
  rcases Nat.le_total n.toInt.natAbs (2 * hiddenBit) with hsmall | hlarge
  · exact ⟨_, isWhole_nearest hsmall _, Nat.min_le_left _ _⟩
  · obtain ⟨k, hwhole, hk⟩ :=
      exists_isWhole_nearest hlarge (by omega) (decide (n.toInt < 0))
    exact ⟨k, hwhole, Nat.le_trans (Nat.min_le_right _ _) hk⟩

theorem toInt?_ofInt (h : i.natAbs ≤ 2 * hiddenBit) : toInt? (ofInt i) = some i := by
  have hwhole := isWhole_nearest h (decide (i < 0))
  rw [ofInt, hwhole.toInt?_eq]
  congr 1
  by_cases hneg : i < 0
  · rw [decide_eq_true hneg, if_pos rfl]
    omega
  · rw [decide_eq_false hneg, if_neg Bool.false_ne_true]
    omega

/-- Only the whole number zero equals zero. -/
theorem IsWhole.eq_zero (h : IsWhole f negative n) (hzero : (f == ofBits false 0) = true) :
    n = 0 := by
  obtain ⟨mantissa, exponent, hparts, hvalue⟩ := h
  obtain ⟨hcanonical, rfl⟩ := canonical_of_parts hparts
  have hbits := toBits_of_beq_zero hzero
  have hlt := hcanonical.position_lt
  have hhidden : hiddenBit = 2 ^ 52 := rfl
  rw [toBits_ofBits hlt] at hbits
  have hposition : position mantissa exponent = 0 := by
    cases negative with
    | false =>
      rw [if_neg Bool.false_ne_true, Nat.zero_add] at hbits
      omega
    | true =>
      rw [if_pos rfl, Nat.add_mod_left] at hbits
      omega
  have hmantissa : mantissa = 0 := by
    rw [position] at hposition
    omega
  have hscaled : n * scaleDown exponent = 0 := by
    rw [← hvalue.whole, hmantissa, Nat.zero_mul]
  exact (Nat.mul_eq_zero.1 hscaled).resolve_right (Nat.ne_of_gt (scaleDown_pos _))

end Whole

end StaticConfig.Double
