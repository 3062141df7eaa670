import Mathlib
import Formula.Decimal.Binary

/-!
Doubles and what they are made of. A finite double is unpacked into the binary fraction that its
fields say, and packing a binary fraction that fits the fields gives a double with these fields.
-/

set_option autoImplicit false

namespace Formula.Decimal

open Float.Model (UnpackedFloat Format)
open Float.Model.UnpackedFloat

/-! ### The fields of a double -/

theorem toNat_unpackMantissa (b : BitVec Format.binary64.numBits) :
    (unpackMantissa b).toNat = b.toNat % 2 ^ 52 := by
  simp [unpackMantissa, BitVec.extractLsb]

theorem toNat_unpackExponent (b : BitVec Format.binary64.numBits) :
    (unpackExponent b).toNat = b.toNat / 2 ^ 52 % 2 ^ 11 := by
  simp [unpackExponent, BitVec.extractLsb, Nat.shiftRight_eq_div_pow]

theorem toNat_unpackSign (b : BitVec Format.binary64.numBits) :
    (unpackSign b).toNat = b.toNat / 2 ^ 63 % 2 := by
  simp [unpackSign, BitVec.extractLsb, Nat.shiftRight_eq_div_pow]

def signOf (negative : Bool) : Sign := if negative then .negative else .positive

def Binary.unpacked (b : Binary) : UnpackedFloat :=
  if h : b.significand = 0 then .zero (signOf b.negative)
  else .finite (signOf b.negative) b.significand b.exponent (Nat.pos_of_ne_zero h)

def Decoded.unpacked : Decoded → UnpackedFloat
  | .nan => .notANumber
  | .infinite negative => .infinity (signOf negative)
  | .finite b => b.unpacked

theorem unpackExponent_full (b : BitVec Format.binary64.numBits) :
    unpackExponent b = -1#_ ↔ b.toNat / 2 ^ 52 % 2 ^ 11 = 2047 := by
  rw [← BitVec.toNat_inj, toNat_unpackExponent]
  exact Iff.rfl

theorem unpackExponent_zero (b : BitVec Format.binary64.numBits) :
    unpackExponent b = 0#_ ↔ b.toNat / 2 ^ 52 % 2 ^ 11 = 0 := by
  rw [← BitVec.toNat_inj, toNat_unpackExponent]
  exact Iff.rfl

theorem unpackMantissa_zero (b : BitVec Format.binary64.numBits) :
    unpackMantissa b = 0#_ ↔ b.toNat % 2 ^ 52 = 0 := by
  rw [← BitVec.toNat_inj, toNat_unpackMantissa]
  exact Iff.rfl

theorem ofBitVec_unpackSign (b : BitVec Format.binary64.numBits) :
    Sign.ofBitVec (unpackSign b) = signOf (b.toNat / 2 ^ 63 % 2 == 1) := by
  have sign := toNat_unpackSign b
  rw [Sign.ofBitVec, signOf]
  rcases Nat.mod_two_eq_zero_or_one (b.toNat / 2 ^ 63) with zero | one
  · rw [zero] at sign ⊢
    rw [if_pos (BitVec.eq_of_toNat_eq sign)]
    rfl
  · rw [one] at sign ⊢
    rw [if_neg]
    · rfl
    · intro same
      rw [same] at sign
      cases sign

theorem Binary.unpacked_of_pos {b : Binary} (positive : 0 < b.significand) :
    b.unpacked = .finite (signOf b.negative) b.significand b.exponent positive :=
  dif_neg positive.ne'

/-- The core model and `decode` read the same number from the bits of a double. -/
theorem unpack_eq (x : Float) : x.toModel.unpack = (decode x).unpacked := by
  have bits : x.toModel.toBits.toBitVec.toNat = x.toBits.toNat := rfl
  have mantissa := toNat_unpackMantissa x.toModel.toBits.toBitVec
  have exponent := toNat_unpackExponent x.toModel.toBits.toBitVec
  have full := unpackExponent_full x.toModel.toBits.toBitVec
  have low := unpackExponent_zero x.toModel.toBits.toBitVec
  have none := unpackMantissa_zero x.toModel.toBits.toBitVec
  have sign := ofBitVec_unpackSign x.toModel.toBits.toBitVec
  rw [bits] at mantissa exponent full low none sign
  rw [Float.Model.unpack, unpack, decode]
  simp only [sign]
  split
  · next isFull =>
      rw [if_pos (full.1 isFull)]
      split
      · next isNone => rw [if_pos (none.1 isNone)]; rfl
      · next isSome => rw [if_neg (isSome ∘ none.2)]; rfl
  · next notFull =>
      rw [if_neg (notFull ∘ full.2)]
      split
      · next isLow =>
          rw [if_pos (low.1 isLow)]
          split
          · next isNone =>
              simp only [Decoded.unpacked, Binary.unpacked, none.1 isNone, ↓reduceDIte]
          · next isSome =>
              rw [Decoded.unpacked, Binary.unpacked_of_pos (Nat.pos_of_ne_zero (isSome ∘ none.2))]
              simp only [UnpackedFloat.finite.injEq, mantissa, exponent, low.1 isLow]
              decide
      · next notLow =>
          rw [if_neg (notLow ∘ low.2), Decoded.unpacked, Binary.unpacked_of_pos (by positivity)]
          simp only [UnpackedFloat.finite.injEq, exponent, true_and]
          refine ⟨?_, by rfl⟩
          have append := BitVec.toNat_append (1#1)
            (@unpackMantissa Format.binary64 x.toModel.toBits.toBitVec)
          rw [mantissa] at append
          rw [append, ← Nat.shiftLeft_add_eq_or_of_lt (Nat.mod_lt _ (by positivity))]
          rfl

/-! ### The double of a binary fraction -/

theorem toNat_packComponents (sign : Sign) (exponent : BitVec 11) (mantissa : BitVec 52) :
    (packComponents Format.binary64 sign exponent mantissa).toNat =
      sign.toBitVec.toNat * 2 ^ 63 + exponent.toNat * 2 ^ 52 + mantissa.toNat := by
  rw [packComponents, BitVec.toNat_append, BitVec.toNat_append,
    ← Nat.shiftLeft_add_eq_or_of_lt mantissa.isLt, ← Nat.shiftLeft_add_eq_or_of_lt exponent.isLt,
    Nat.shiftLeft_eq, Nat.shiftLeft_eq]
  ring

/-- The numbers that a finite double is made of. -/
structure Binary.Canonical (b : Binary) : Prop where
  bounded : b.significand < 2 ^ 53
  least : -1074 ≤ b.exponent
  greatest : b.exponent ≤ 971
  normal : 2 ^ 52 ≤ b.significand ∨ b.exponent = -1074

theorem canonical_of_decode {x : Float} {b : Binary} (decoded : decode x = .finite b) :
    b.Canonical := by
  have fraction : x.toBits.toNat % 2 ^ 52 < 2 ^ 52 := Nat.mod_lt _ (by positivity)
  have biased : x.toBits.toNat / 2 ^ 52 % 2 ^ 11 < 2 ^ 11 := Nat.mod_lt _ (by positivity)
  simp only [decode] at decoded
  split at decoded
  · split at decoded <;> cases decoded
  · next notFull =>
      split at decoded
      · cases decoded
        exact ⟨by dsimp only; omega, le_refl _, (by decide : (-1074 : ℤ) ≤ 971), .inr rfl⟩
      · next notLow =>
          cases decoded
          exact ⟨by dsimp only; omega, by dsimp only; omega, by dsimp only; omega,
            .inl (Nat.le_add_right _ _)⟩

def Binary.toFloat (b : Binary) : Float := .ofModel (.pack b.unpacked)

theorem toNat_signOf (negative : Bool) : (signOf negative).toBitVec.toNat = negative.toNat := by
  cases negative <;> rfl

theorem toNat_toBits_toFloat {b : Binary} (canonical : b.Canonical) :
    b.toFloat.toBits.toNat = b.negative.toNat * 2 ^ 63 +
      (if b.significand < 2 ^ 52 then b.significand
        else (b.exponent + 1075).toNat * 2 ^ 52 + (b.significand - 2 ^ 52)) := by
  obtain ⟨negative, significand, exponent⟩ := b
  obtain ⟨bounded, least, greatest, normal⟩ := canonical
  dsimp only at bounded least greatest normal ⊢
  change (pack Format.binary64 (Binary.unpacked ⟨negative, significand, exponent⟩)).toNat = _
  by_cases zero : significand = 0
  · subst zero
    change (packComponents Format.binary64 (signOf negative) 0 0).toNat = _
    rw [toNat_packComponents, toNat_signOf, if_pos (by norm_num)]
    simp
  · have positive : 0 < significand := Nat.pos_of_ne_zero zero
    rw [Binary.unpacked_of_pos positive, pack]
    have biased : (exponent + Format.binary64.exponentBias +
        Format.binary64.mantissaBitsWithoutImplicit).toNat = (exponent + 1075).toNat := by
      have bias : Format.binary64.exponentBias = 1023 := rfl
      rw [bias]
      congr 1
      exact (show exponent + ((1023 : ℕ) : ℤ) + ((52 : ℕ) : ℤ) = exponent + 1075 by omega)
    dsimp only
    rw [biased, if_neg (by norm_num; omega)]
    by_cases small : significand < 2 ^ 52
    · have bits : ¬ significand.log2 + 1 = Format.binary64.mantissaBits := by
        have := (Nat.log2_lt zero).2 small
        exact (show ¬ significand.log2 + 1 = 53 by omega)
      rw [if_neg bits, if_pos small, toNat_packComponents, toNat_signOf, BitVec.toNat_ofNat,
        BitVec.toNat_ofNat, Nat.mod_eq_of_lt small]
      simp
    · have bits : significand.log2 + 1 = Format.binary64.mantissaBits := by
        have above := (Nat.log2_lt zero).2 bounded
        have below := mt (Nat.log2_lt zero).1 small
        exact (show significand.log2 + 1 = 53 by omega)
      rw [if_pos bits, if_neg small, toNat_packComponents, toNat_signOf, BitVec.toNat_ofNat,
        BitVec.toNat_ofNat]
      omega

theorem decode_toFloat {b : Binary} (canonical : b.Canonical) : decode b.toFloat = .finite b := by
  have bits := toNat_toBits_toFloat canonical
  obtain ⟨negative, significand, exponent⟩ := b
  obtain ⟨bounded, least, greatest, normal⟩ := canonical
  dsimp only at bits bounded least greatest normal
  have sign : negative.toNat < 2 := Bool.toNat_lt _
  have same : (negative.toNat == 1) = negative := by cases negative <;> rfl
  simp only [decode, bits]
  split
  · next small =>
      generalize field : negative.toNat * 2 ^ 63 + significand = word
      have biased : word / 2 ^ 52 % 2 ^ 11 = 0 := by omega
      have signed : word / 2 ^ 63 % 2 = negative.toNat := by omega
      have fraction : word % 2 ^ 52 = significand := by omega
      have lowest : exponent = -1074 := normal.resolve_left (by omega)
      rw [biased, signed, fraction, same, lowest, if_neg (by decide), if_pos rfl]
  · next large =>
      generalize field : negative.toNat * 2 ^ 63 +
        ((exponent + 1075).toNat * 2 ^ 52 + (significand - 2 ^ 52)) = word
      have biased : word / 2 ^ 52 % 2 ^ 11 = (exponent + 1075).toNat := by omega
      have signed : word / 2 ^ 63 % 2 = negative.toNat := by omega
      have fraction : word % 2 ^ 52 = significand - 2 ^ 52 := by omega
      have unbiased : ((exponent + 1075).toNat : ℤ) - 1075 = exponent := by omega
      rw [biased, signed, fraction, same, if_neg (by omega), if_neg (by omega),
        Nat.add_sub_cancel' (Nat.le_of_not_lt large), unbiased]

theorem toNat_toBits_of_decode {x : Float} {b : Binary} (decoded : decode x = .finite b) :
    x.toBits.toNat = b.negative.toNat * 2 ^ 63 +
      (if b.significand < 2 ^ 52 then b.significand
        else (b.exponent + 1075).toNat * 2 ^ 52 + (b.significand - 2 ^ 52)) := by
  have below : x.toBits.toNat < 2 ^ 64 := x.toBits.toNat_lt
  have sign : (x.toBits.toNat / 2 ^ 63 % 2 == 1).toNat = x.toBits.toNat / 2 ^ 63 := by
    rcases Nat.mod_two_eq_zero_or_one (x.toBits.toNat / 2 ^ 63) with zero | one
    · rw [zero]
      exact (show 0 = x.toBits.toNat / 2 ^ 63 by omega)
    · rw [one]
      exact (show 1 = x.toBits.toNat / 2 ^ 63 by omega)
  simp only [decode] at decoded
  split at decoded
  · split at decoded <;> cases decoded
  · next notFull =>
      split at decoded
      · next low =>
          cases decoded
          dsimp only
          rw [sign, if_pos (Nat.mod_lt _ (by positivity))]
          omega
      · next notLow =>
          cases decoded
          dsimp only
          rw [sign, if_neg (Nat.not_lt.2 (Nat.le_add_right _ _)), Nat.add_sub_cancel_left,
            Int.sub_add_cancel, Int.toNat_natCast]
          omega

theorem eq_toFloat_of_decode {x : Float} {b : Binary} (decoded : decode x = .finite b) :
    x = b.toFloat := by
  have bits := (toNat_toBits_of_decode decoded).trans
    (toNat_toBits_toFloat (canonical_of_decode decoded)).symm
  exact Float.toBits_inj.1 (UInt64.toNat_inj.1 bits)

end Formula.Decimal
