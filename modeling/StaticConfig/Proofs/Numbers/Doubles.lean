import Mathlib.Tactic.Ring
import StaticConfig.Double.Basic
import StaticConfig.Proofs.Comparison.Over

/-!
The bits of doubles. A finite double is made of a sign, a mantissa and an exponent and gives back
exactly these; a double equals zero only if no bit but the sign is set.
-/
namespace StaticConfig.Double

open Float.Model (Format)
open Float.Model.UnpackedFloat

/-- The bits of a double. -/
abbrev Word := BitVec Format.binary64.numBits

theorem toNat_unpackExponent (b : Word) :
    (unpackExponent b).toNat = b.toNat / 2 ^ 52 % 2 ^ 11 := by
  simp [unpackExponent, Nat.shiftRight_eq_div_pow]

theorem toNat_unpackMantissa (b : Word) : (unpackMantissa b).toNat = b.toNat % 2 ^ 52 := by
  simp [unpackMantissa]

theorem toNat_unpackSign (b : Word) :
    (Sign.ofBitVec (unpackSign b)).toBitVec.toNat = b.toNat / 2 ^ 63 := by
  have hlt : b.toNat < 2 ^ 64 := b.isLt
  have hsign : (unpackSign b).toNat = b.toNat / 2 ^ 63 % 2 := by
    rw [unpackSign, BitVec.toNat_cast, BitVec.extractLsb_toNat, Nat.shiftRight_eq_div_pow]
    rfl
  rw [Nat.mod_eq_of_lt (by omega)] at hsign
  rw [← hsign]
  generalize unpackSign b = s
  revert s
  decide

theorem toNat_packComponents (s : Sign) (e : BitVec 11) (m : BitVec 52) :
    (packComponents .binary64 s e m).toNat =
      s.toBitVec.toNat * 2 ^ 63 + e.toNat * 2 ^ 52 + m.toNat := by
  rw [packComponents, BitVec.toNat_append, ← Nat.shiftLeft_add_eq_or_of_lt m.isLt,
    BitVec.toNat_append, ← Nat.shiftLeft_add_eq_or_of_lt e.isLt, Nat.shiftLeft_eq,
    Nat.shiftLeft_eq]
  ring

theorem packComponents_eq {b : Word} {e : BitVec 11} {m : BitVec 52}
    (he : e.toNat = b.toNat / 2 ^ 52 % 2 ^ 11) (hm : m.toNat = b.toNat % 2 ^ 52) :
    packComponents .binary64 (Sign.ofBitVec (unpackSign b)) e m = b := by
  apply BitVec.eq_of_toNat_eq
  rw [toNat_packComponents, toNat_unpackSign, he, hm]
  omega

/-- A mantissa behind its first bit, which is not written. -/
theorem toNat_one_append (m : BitVec 52) : (1#1 ++ m).toNat = 2 ^ 52 + m.toNat := by
  rw [BitVec.toNat_append, ← Nat.shiftLeft_add_eq_or_of_lt m.isLt]
  rfl

/-- The bits of a finite double are kept. Those of not-a-number need not be. -/
theorem pack_unpack {b : Word} (h : b.toNat / 2 ^ 52 % 2 ^ 11 ≠ 2047) :
    pack .binary64 (unpack .binary64 b) = b := by
  have hexponent := toNat_unpackExponent b
  have hmantissa := toNat_unpackMantissa b
  have hbits : Format.binary64.mantissaBits = 53 := rfl
  have hfinite : unpackExponent b ≠ -1#11 := by
    intro heq
    rw [heq] at hexponent
    exact h hexponent.symm
  have hlow : (unpackMantissa b).toNat < 2 ^ 52 := (unpackMantissa b).isLt
  rw [unpack]
  dsimp only
  rw [if_neg hfinite]
  split
  · next hsmall =>
    rw [hsmall] at hexponent
    split
    · next hzero =>
      rw [hzero] at hmantissa
      exact packComponents_eq hexponent hmantissa
    · next hpos =>
      have hne : (unpackMantissa b).toNat ≠ 0 := fun hz => hpos (BitVec.eq_of_toNat_eq hz)
      have hlog : (unpackMantissa b).toNat.log2 < 52 := (Nat.log2_lt hne).2 hlow
      rw [hsmall, pack]
      dsimp only
      rw [if_neg (by decide), if_neg (by omega)]
      refine packComponents_eq hexponent ?_
      rw [BitVec.ofNat_toNat, BitVec.setWidth_eq, hmantissa]
  · next hnormal =>
    have hne : (unpackExponent b).toNat ≠ 0 := fun hz => hnormal (BitVec.eq_of_toNat_eq hz)
    have hfirst := toNat_one_append (unpackMantissa b)
    have hlog : (1#1 ++ unpackMantissa b).toNat.log2 = 52 :=
      (Nat.log2_eq_iff (by omega)).2 ⟨by omega, by omega⟩
    have hbiased (n : Nat) : ((n : Int) - ((Format.binary64.exponentBias : Int) +
        (Format.binary64.mantissaBitsWithoutImplicit : Int)) +
        (Format.binary64.exponentBias : Int) +
        (Format.binary64.mantissaBitsWithoutImplicit : Int)).toNat = n := by omega
    have hwidth : 2 ^ Format.binary64.exponentBits = 2 ^ 11 := rfl
    rw [pack]
    dsimp only
    rw [hbiased, if_neg (by omega), if_pos (by omega)]
    refine packComponents_eq ?_ ?_
    · rw [BitVec.ofNat_toNat, BitVec.setWidth_eq, hexponent]
    · rw [BitVec.toNat_ofNat, hfirst, Nat.add_mod_left, Nat.mod_eq_of_lt hlow, hmantissa]

theorem toNat_of_unpack_eq_zero {b : Word} {s : Sign} (h : unpack .binary64 b = .zero s) :
    b.toNat % 2 ^ 63 = 0 := by
  have hexponent := toNat_unpackExponent b
  have hmantissa := toNat_unpackMantissa b
  rw [unpack] at h
  dsimp only at h
  split at h
  · split at h
    · cases h
    · cases h
  · split at h
    · next hsmall =>
      split at h
      · next hzero =>
        rw [hsmall] at hexponent
        rw [hzero] at hmantissa
        have hexponent : b.toNat / 2 ^ 52 % 2 ^ 11 = 0 := hexponent.symm
        have hmantissa : b.toNat % 2 ^ 52 = 0 := hmantissa.symm
        omega
      · cases h
    · cases h

theorem toBits_ofBits {bits : Nat} (h : bits < 2047 * hiddenBit) (negative : Bool) :
    (ofBits negative bits).toBits.toNat = (if negative then 2 ^ 63 else 0) + bits := by
  have hhidden : hiddenBit = 2 ^ 52 := rfl
  have hsign : (if negative then 2 ^ 63 else 0) % 2 ^ 63 = 0 ∧
      (if negative then 2 ^ 63 else 0) ≤ 2 ^ 63 := by
    cases negative <;> decide
  have hword : (UInt64.ofNat ((if negative then 2 ^ 63 else 0) + bits)).toBitVec.toNat =
      (if negative then 2 ^ 63 else 0) + bits := by
    rw [UInt64.toNat_toBitVec, UInt64.toNat_ofNat']
    exact Nat.mod_eq_of_lt (by omega)
  have hkept := pack_unpack (b := (UInt64.ofNat ((if negative then 2 ^ 63 else 0) + bits)).toBitVec)
    (by omega)
  rw [← hword]
  exact congrArg BitVec.toNat hkept

theorem eq_of_toBits {f g : Float} (h : f.toBits.toNat = g.toBits.toNat) : f = g := by
  obtain ⟨⟨bits, _⟩⟩ := f
  obtain ⟨⟨bits', _⟩⟩ := g
  obtain rfl : bits = bits' := UInt64.toNat_inj.1 h
  rfl

/-- Equality with zero does not see the sign. -/
theorem toBits_of_beq_zero {f : Float} (h : (f == ofBits false 0) = true) :
    f.toBits.toNat % 2 ^ 63 = 0 := by
  have hzero : (ofBits false 0).toModel.unpack = .zero .positive := by rfl
  obtain ⟨-, -, hsame⟩ := (beq_iff f _).1 h
  rw [hzero] at hsame
  rcases hsame with hsame | ⟨hsame, -⟩ | ⟨hsame, -⟩
  · exact toNat_of_unpack_eq_zero hsame
  · exact toNat_of_unpack_eq_zero hsame
  · exact toNat_of_unpack_eq_zero hsame

/-- A mantissa and an exponent in the form that doubles have: only with the least exponent the
mantissa may be without its first bit. -/
structure Canonical (mantissa : Nat) (exponent : Int) : Prop where
  mantissa_lt : mantissa < 2 * hiddenBit
  normal : mantissa < hiddenBit → exponent = minExponent
  least : minExponent ≤ exponent
  greatest : exponent ≤ 971

/-- The bits of the double with this mantissa and exponent, without the sign. -/
def position (mantissa : Nat) (exponent : Int) : Nat :=
  mantissa + (exponent - minExponent).toNat * hiddenBit

/-- The sign of a word, and what it is above and below the first bit of a mantissa. -/
theorem split_sign {bits : Nat} (h : bits < 2 ^ 63) (negative : Bool) :
    (((if negative then 2 ^ 63 else 0) + bits) / 2 ^ 63 % 2 == 1) = negative ∧
      ((if negative then 2 ^ 63 else 0) + bits) / 2 ^ 52 % 2048 = bits / 2 ^ 52 ∧
      ((if negative then 2 ^ 63 else 0) + bits) % 2 ^ 52 = bits % 2 ^ 52 := by
  cases negative with
  | false =>
    rw [if_neg Bool.false_ne_true, Nat.zero_add]
    exact ⟨by rw [beq_eq_false_iff_ne]; omega, by omega, rfl⟩
  | true =>
    rw [if_pos rfl]
    exact ⟨by rw [beq_iff_eq]; omega, by omega, by omega⟩

namespace Canonical

variable {mantissa : Nat} {exponent : Int} (h : Canonical mantissa exponent)

include h

theorem position_lt : position mantissa exponent < 2047 * hiddenBit := by
  obtain ⟨hm, -, hleast, hgreatest⟩ := h
  have hmin : minExponent = -1074 := rfl
  have hhidden : hiddenBit = 2 ^ 52 := rfl
  have hsteps : (exponent - minExponent).toNat ≤ 2045 := by omega
  rw [position, hhidden]
  omega

theorem parts_ofBits (negative : Bool) :
    parts (ofBits negative (position mantissa exponent)) = .finite negative mantissa exponent := by
  have hmin : minExponent = -1074 := rfl
  have hhidden : hiddenBit = 2 ^ 52 := rfl
  have hpow : Nat.pow 2 63 = 2 ^ 63 := rfl
  have hlt := h.position_lt
  obtain ⟨hm, hnormal, hleast, hgreatest⟩ := h
  have hbits : position mantissa exponent < 2 ^ 63 := by omega
  obtain ⟨hsign, hexponent, hfraction⟩ := split_sign hbits negative
  simp only [parts, toBits_ofBits hlt, hhidden, hpow, hsign, hexponent, hfraction]
  rw [hhidden] at *
  by_cases hsmall : mantissa < 2 ^ 52
  · have hplace : position mantissa exponent = mantissa := by
      rw [position, hnormal hsmall]
      simp
    rw [hplace, Nat.div_eq_of_lt hsmall, Nat.mod_eq_of_lt hsmall, if_neg (by decide), if_pos rfl,
      hnormal hsmall]
  · obtain ⟨k, hk⟩ : ∃ k : Nat, exponent = minExponent + k :=
      ⟨(exponent - minExponent).toNat, by omega⟩
    have hplace : position mantissa exponent = mantissa + k * 2 ^ 52 := by
      rw [position, hhidden, hk]
      congr 2
      omega
    have hdiv : (mantissa + k * 2 ^ 52) / 2 ^ 52 = k + 1 := by omega
    have hmod : (mantissa + k * 2 ^ 52) % 2 ^ 52 + 2 ^ 52 = mantissa := by omega
    rw [hplace, hdiv, hmod, if_neg (by omega), if_neg (by omega)]
    congr 1
    rw [Int.ofNat_eq_natCast]
    omega

end Canonical

/-- A finite double is made of its sign, its mantissa and its exponent. -/
theorem canonical_of_parts {f : Float} {negative : Bool} {mantissa : Nat} {exponent : Int}
    (h : parts f = .finite negative mantissa exponent) :
    Canonical mantissa exponent ∧ f = ofBits negative (position mantissa exponent) := by
  have hmin : minExponent = -1074 := rfl
  have hhidden : hiddenBit = 2 ^ 52 := rfl
  have hpow : Nat.pow 2 63 = 2 ^ 63 := rfl
  have hword : f.toBits.toNat < 2 ^ 64 := f.toBits.toNat_lt
  suffices hgoal : Canonical mantissa exponent ∧ f.toBits.toNat =
      (if negative then 2 ^ 63 else 0) + position mantissa exponent from
    ⟨hgoal.1, eq_of_toBits (hgoal.2.trans (toBits_ofBits hgoal.1.position_lt negative).symm)⟩
  simp only [parts, hhidden, hpow] at h
  generalize f.toBits.toNat = b at *
  have hsign : (if b / 2 ^ 63 % 2 == 1 then 2 ^ 63 else 0) = b / 2 ^ 63 * 2 ^ 63 := by
    split
    · next hset =>
      rw [beq_iff_eq] at hset
      omega
    · next hunset =>
      rw [beq_iff_eq] at hunset
      omega
  split at h
  · split at h
    · cases h
    · cases h
  · split at h
    · cases h
      refine ⟨⟨by omega, fun _ => rfl, Int.le_refl _, by decide⟩, ?_⟩
      rw [hsign, position, hmin, hhidden]
      omega
    · cases h
      rw [Int.ofNat_eq_natCast]
      refine ⟨⟨by omega, by omega, by omega, by omega⟩, ?_⟩
      rw [hsign, position, hmin, hhidden]
      omega

end StaticConfig.Double
