import Mathlib.Tactic.IntervalCases
import Formula.Proofs.Decimal.Rounding
import Formula.Proofs.Decimal.Text

/-!
Reading decimals. A decimal that lies in the interval of a double is read as this double, on each of
the ways the reading takes.
-/

set_option autoImplicit false

namespace Formula.Decimal

open Float.Model (UnpackedFloat Format totalExponent)
open Float.Model.UnpackedFloat

namespace Binary

/-- The number that a binary fraction stands for, without its sign. -/
def size (b : Binary) : ℚ := scaledBy b.significand b.exponent

/-- The numbers that a double above zero is made of. -/
structure AboveZero (b : Binary) : Prop extends b.Canonical where
  plain : b.negative = false
  positive : 0 < b.significand

theorem AboveZero.toFloat_eq {b : Binary} (above : b.AboveZero) :
    b.toFloat = .ofModel (.pack (.finite .positive b.significand b.exponent above.positive)) := by
  rw [toFloat, unpacked_of_pos above.positive, above.plain]
  rfl

theorem AboveZero.unpack_toFloat {b : Binary} (above : b.AboveZero) :
    b.toFloat.toModel.unpack = .finite .positive b.significand b.exponent above.positive := by
  rw [unpack_eq, decode_toFloat above.toCanonical, Decoded.unpacked,
    unpacked_of_pos above.positive, above.plain]
  rfl

theorem near_size {b : Binary} (positive : 0 < b.significand) : b.Near b.size := by
  have scale := two_zpow_pos b.exponent
  have low : (b.interval.low : ℚ) < 4 * b.significand := by
    by_cases edge : b.isEdge
    · rw [interval_low_edge edge]
      linarith
    · rw [interval_low_inner edge positive]
      linarith
  have high : (4 * b.significand : ℚ) < b.interval.high := by
    simp only [interval]
    push_cast
    linarith
  have below : (b.interval.low : ℚ) * 2 ^ (b.exponent - 2) < b.size := by
    rw [quarter, size, scaledBy]
    nlinarith
  have above : b.size < (b.interval.high : ℚ) * 2 ^ (b.exponent - 2) := by
    rw [quarter, size, scaledBy]
    nlinarith
  exact ⟨below.le, above.le, fun _ => ⟨below.ne, above.ne⟩⟩

end Binary

/-! ### Natural numbers as doubles -/

/-- The binary fraction of a natural number that is not too large. -/
def ofSmall (n : Nat) : Binary := ⟨false, n * 2 ^ (52 - n.log2), (n.log2 : ℤ) - 52⟩

theorem aboveZero_ofSmall {n : Nat} (positive : 0 < n) (small : n < 2 ^ 53) :
    (ofSmall n).AboveZero := by
  have bits : n.log2 < 53 := (Nat.log2_lt positive.ne').2 small
  have low : 2 ^ 52 ≤ n * 2 ^ (52 - n.log2) := by
    calc 2 ^ 52 = 2 ^ n.log2 * 2 ^ (52 - n.log2) := by rw [← Nat.pow_add]; congr 1; omega
      _ ≤ n * 2 ^ (52 - n.log2) := Nat.mul_le_mul_right _ (Nat.log2_self_le positive.ne')
  have high : n * 2 ^ (52 - n.log2) < 2 ^ 53 := by
    calc n * 2 ^ (52 - n.log2) < 2 ^ (n.log2 + 1) * 2 ^ (52 - n.log2) :=
          Nat.mul_lt_mul_of_pos_right Nat.lt_log2_self (Nat.two_pow_pos _)
      _ = 2 ^ 53 := by rw [← Nat.pow_add]; congr 1; omega
  exact ⟨⟨high, by simp only [ofSmall]; omega, by simp only [ofSmall]; omega, .inl low⟩, rfl,
    Nat.mul_pos positive (Nat.two_pow_pos _)⟩

theorem size_ofSmall {n : Nat} (positive : 0 < n) (small : n < 2 ^ 53) :
    (ofSmall n).size = n := by
  have bits : n.log2 < 53 := (Nat.log2_lt positive.ne').2 small
  have scale : (2 : ℚ) ^ (52 - n.log2) * 2 ^ ((n.log2 : ℤ) - 52) = 1 := by
    rw [← zpow_natCast, ← two_zpow_add, Nat.cast_sub (by omega)]
    norm_num
  rw [Binary.size, scaledBy, ofSmall]
  push_cast
  rw [mul_assoc, scale, mul_one]

theorem toFloat_toUInt64 {n : Nat} (positive : 0 < n) (small : n < 2 ^ 53) :
    n.toUInt64.toFloat = (ofSmall n).toFloat := by
  have bits : n.log2 < 53 := (Nat.log2_lt positive.ne').2 small
  have above := aboveZero_ofSmall positive small
  have near := Binary.near_size above.positive
  have target : Format.binary64.targetExponent (totalExponent n 0) = (n.log2 : ℤ) - 52 := by
    rw [targetExponent_eq, totalExponent]
    omega
  have shift : (0 - ((n.log2 : ℤ) - 52)).toNat = 52 - n.log2 := by omega
  have reached : (0 : ℤ) - ((52 - n.log2 : ℕ) : ℤ) = (n.log2 : ℤ) - 52 := by omega
  have word : n.toUInt64.toNat = n := by
    rw [Nat.toUInt64, UInt64.toNat_ofNat']
    exact Nat.mod_eq_of_lt (by omega)
  have rounded : UnpackedFloat.ofUInt64 Format.binary64 n.toUInt64 =
      .finite .positive (ofSmall n).significand (ofSmall n).exponent above.positive := by
    have sign : compare (n : ℤ) 0 = .gt := Int.compare_eq_gt.2 (by omega)
    rw [UnpackedFloat.ofUInt64, UnpackedFloat.ofNat, ofInt, word, UnpackedFloat.normalize, sign]
    simp only [Int.toNat_natCast, UnpackedFloat.round, target, decreaseExponent, shift, reached,
      Nat.shiftLeft_eq]
    exact near.roundWithAccuracy_eq _ above.toCanonical above.positive
      (.inl (above.normal.resolve_right (by simp only [ofSmall]; omega)))
      (holds_exact (ofSmall n).significand)
  rw [above.toFloat_eq, ← rounded]
  rfl

/-! ### Powers of ten as doubles -/

/-- The table of powers holds a power of ten exactly. -/
def IsPower (x : Float) (e : Nat) : Prop :=
  match decode x with
  | .finite b => b.negative = false ∧
      b.significand * 2 ^ b.exponent.toNat = 10 ^ e * 2 ^ (-b.exponent).toNat
  | _ => False

instance (x : Float) (e : Nat) : Decidable (IsPower x e) := by
  unfold IsPower
  split <;> infer_instance

theorem isPower_table : ∀ e : Fin 23, IsPower Float.exactlyRepresentablePowersOfTen[e] e := by
  decide

theorem zpow_mul_toNat {a : ℚ} (nonzero : a ≠ 0) (x : ℤ) :
    a ^ x * a ^ (-x).toNat = a ^ x.toNat := by
  rw [← zpow_natCast, ← zpow_natCast, ← zpow_add₀ nonzero]
  congr 1
  omega

theorem IsPower.decode {x : Float} {e : Nat} (power : IsPower x e) :
    ∃ b : Binary, b.AboveZero ∧ x = b.toFloat ∧ b.size = 10 ^ e := by
  rw [IsPower] at power
  split at power
  · next b decoded =>
      obtain ⟨plain, value⟩ := power
      have value' : (b.significand : ℚ) * 2 ^ b.exponent.toNat =
          10 ^ e * 2 ^ (-b.exponent).toNat := by
        exact_mod_cast value
      refine ⟨b, ⟨canonical_of_decode decoded, plain, ?_⟩, eq_toFloat_of_decode decoded, ?_⟩
      · apply Nat.pos_of_ne_zero
        intro none
        rw [none, Nat.zero_mul] at value
        have : 0 < 10 ^ e * 2 ^ (-b.exponent).toNat := by positivity
        omega
      · have scale : (0 : ℚ) < 2 ^ (-b.exponent).toNat := by positivity
        rw [Binary.size, scaledBy]
        rw [← zpow_mul_toNat two_ne_zero, ← mul_assoc] at value'
        exact mul_right_cancel₀ scale.ne' value'
  · cases power

/-! ### The ways of reading -/

section

variable {b : Binary} {m e : Nat}

/-- A product of doubles in the interval of a double. -/
theorem mul_toFloat {c d : Binary} (first : c.AboveZero) (second : d.AboveZero)
    (near : b.Near (c.size * d.size)) (above : b.AboveZero)
    (long : 2 ^ 52 ≤ c.significand * d.significand) : c.toFloat * d.toFloat = b.toFloat := by
  have product : mul _ _ _ = UnpackedFloat.finite .positive _ _ _ :=
    near.mul_eq .positive .positive first.positive second.positive above.toCanonical above.positive
      long
  rw [above.toFloat_eq, ← product, ← first.unpack_toFloat, ← second.unpack_toFloat]
  rfl

/-- A quotient of doubles in the interval of a double. -/
theorem div_toFloat {c d : Binary} (first : c.AboveZero) (second : d.AboveZero)
    (near : b.Near (c.size / d.size)) (above : b.AboveZero) :
    c.toFloat / d.toFloat = b.toFloat := by
  have quotient : div _ _ _ = UnpackedFloat.finite .positive _ _ _ :=
    near.div_eq .positive .positive first.positive second.positive above.toCanonical above.positive
  rw [above.toFloat_eq, ← quotient, ← first.unpack_toFloat, ← second.unpack_toFloat]
  rfl

/-- Few digits and a small power of ten take one exact operation. -/
theorem ofScientific_fast (hm : 0 < m) (small : m < 2 ^ 53 ∧ e ≤ 22) (negative : Bool)
    (near : b.Near (if negative then m / 10 ^ e else m * 10 ^ e)) (above : b.AboveZero) :
    Float.ofScientific m negative e = b.toFloat := by
  obtain ⟨power, tens, written, value⟩ := (isPower_table ⟨e, by omega⟩).decode
  have table (inside : e < Float.exactlyRepresentablePowersOfTen.size) :
      Float.exactlyRepresentablePowersOfTen[e] = power.toFloat := written
  have integer := aboveZero_ofSmall hm small.1
  have value' : power.size = 10 ^ e := value
  rw [Float.ofScientific, dif_pos small]
  simp only [table, toFloat_toUInt64 hm small.1]
  cases negative with
  | true =>
      rw [if_pos rfl, ← size_ofSmall hm small.1, ← value'] at near
      exact div_toFloat integer tens near above
  | false =>
      rw [if_neg Bool.false_ne_true, ← size_ofSmall hm small.1, ← value'] at near
      apply mul_toFloat integer tens near above
      have long := integer.normal.resolve_right (by simp only [ofSmall]; omega)
      exact Nat.le_trans long (Nat.le_mul_of_pos_right _ tens.positive)

/-- An integer with zeros behind it is rounded once. -/
theorem unpacked_product (hm : 0 < m) (moderate : e ≤ 2048) (near : b.Near (m * 10 ^ e))
    (above : b.AboveZero) :
    UnpackedFloat.ofScientific Format.binary64 m (e : ℤ) =
      .finite .positive b.significand b.exponent above.positive := by
  have bits : Format.binary64.mantissaBits = 53 := rfl
  have range : (2 : ℤ) ^ Format.binary64.exponentBits = 2048 := rfl
  have product : scaledBy (m <<< 53) (-53) * scaledBy (10 ^ e) 0 = m * 10 ^ e := by
    rw [scaledBy, scaledBy, Nat.shiftLeft_eq]
    push_cast
    norm_num
    ring
  have long : 2 ^ 52 ≤ m <<< 53 * 10 ^ e := by
    rw [Nat.shiftLeft_eq]
    have tens : 0 < 10 ^ e := Nat.pow_pos (by norm_num)
    calc 2 ^ 52 ≤ m * 2 ^ 53 := by omega
      _ ≤ m * 2 ^ 53 * 10 ^ e := Nat.le_mul_of_pos_right _ tens
  rw [← product] at near
  rw [UnpackedFloat.ofScientific, dif_neg hm.ne', range, if_neg (by omega), if_neg (by omega),
    if_pos (by omega)]
  exact near.mul_eq .positive .positive _ _ above.toCanonical above.positive long

/-- An integer with a point among or in front of its digits is rounded once. -/
theorem unpacked_quotient (hm : 0 < m) (he : 0 < e) (moderate : e ≤ 2048 + m.log2)
    (near : b.Near (m / 10 ^ e)) (above : b.AboveZero) :
    UnpackedFloat.ofScientific Format.binary64 m (-(e : ℤ)) =
      .finite .positive b.significand b.exponent above.positive := by
  have range : (2 : ℤ) ^ Format.binary64.exponentBits = 2048 := rfl
  have quotient : scaledBy m 0 / scaledBy (10 ^ (- -(e : ℤ)).toNat) 0 = m / 10 ^ e := by
    rw [scaledBy, scaledBy, neg_neg, Int.toNat_natCast]
    push_cast
    norm_num
  rw [← quotient] at near
  rw [UnpackedFloat.ofScientific, dif_neg hm.ne', range, if_neg (by omega), if_neg (by omega),
    if_neg (by omega)]
  exact near.div_eq .positive .positive _ _ above.toCanonical above.positive

/-- A decimal without fraction in the interval of a double. -/
theorem ofScientific_product (hm : 0 < m) (moderate : e ≤ 2048) (near : b.Near (m * 10 ^ e))
    (above : b.AboveZero) : Float.ofScientific m false e = b.toFloat := by
  by_cases small : m < 2 ^ 53 ∧ e ≤ 22
  · exact ofScientific_fast hm small false near above
  · rw [Float.ofScientific, dif_neg small, above.toFloat_eq,
      ← unpacked_product hm moderate near above]
    rfl

/-- A decimal with a fraction in the interval of a double. -/
theorem ofScientific_quotient (hm : 0 < m) (he : 0 < e) (moderate : e ≤ 2048 + m.log2)
    (near : b.Near (m / 10 ^ e)) (above : b.AboveZero) :
    Float.ofScientific m true e = b.toFloat := by
  by_cases small : m < 2 ^ 53 ∧ e ≤ 22
  · exact ofScientific_fast hm small true near above
  · rw [Float.ofScientific, dif_neg small, above.toFloat_eq,
      ← unpacked_quotient hm he moderate near above]
    obtain ⟨k, rfl⟩ := Nat.exists_eq_succ_of_ne_zero he.ne'
    rfl

end

/-! ### Decimals -/

/-- The number of its digits says between which powers of ten a number lies. -/
theorem digitCount_bounds {n : Nat} (positive : 0 < n) :
    (10 : ℚ) ^ ((digitCount n : ℤ) - 1) ≤ n ∧ (n : ℚ) < 10 ^ (digitCount n : ℤ) := by
  have present : 0 < digitCount n := Nat.length_toDigits_pos
  have below : n < 10 ^ digitCount n :=
    (Nat.length_toDigits_le_iff (by norm_num) present).1 (Nat.le_refl _)
  have above : 10 ^ (digitCount n - 1) ≤ n := by
    by_cases single : digitCount n = 1
    · rw [single]
      exact positive
    · by_contra less
      have fewer : digitCount n ≤ digitCount n - 1 :=
        (Nat.length_toDigits_le_iff (by norm_num) (by omega)).2 (not_le.1 less)
      omega
  constructor
  · rw [(show (digitCount n : ℤ) - 1 = (digitCount n - 1 : ℕ) by omega), zpow_natCast]
    exact_mod_cast above
  · rw [zpow_natCast]
    exact_mod_cast below

theorem ten_zpow_pos (e : ℤ) : (0 : ℚ) < 10 ^ e := zpow_pos (by norm_num) e

theorem ten_zpow_lt_iff (d e : ℤ) : (10 : ℚ) ^ d < 10 ^ e ↔ d < e :=
  zpow_lt_zpow_iff_right₀ (by norm_num)

theorem digitCount_le_log2 (n : Nat) : digitCount n ≤ n.log2 + 1 := by
  rw [digitCount, digitsOf, Nat.length_toDigits_le_iff (by norm_num) (Nat.succ_pos _)]
  calc n < 2 ^ (n.log2 + 1) := Nat.lt_log2_self
    _ ≤ 10 ^ (n.log2 + 1) := Nat.pow_le_pow_left (by norm_num) _

/-- The doubles lie far within the range that is read. -/
theorem Binary.Near.moderate {b : Binary} {q : ℚ} (near : b.Near q) (canonical : b.Canonical)
    (positive : 0 < b.significand) : (10 : ℚ) ^ (-330 : ℤ) ≤ q ∧ q < 10 ^ (309 : ℤ) := by
  have greatest := canonical.greatest
  have least := canonical.least
  have one : (1 : ℚ) ≤ b.significand := by exact_mod_cast positive
  constructor
  · have scale := two_zpow_pos b.exponent
    have powers : (2 : ℚ) * 2 ^ 1074 ≤ 10 ^ 330 := by
      exact_mod_cast (by decide +kernel : 2 * 2 ^ 1074 ≤ 10 ^ 330)
    calc (10 : ℚ) ^ (-330 : ℤ) ≤ 1 / 2 * 2 ^ (-1074 : ℤ) := by
          rw [zpow_neg, zpow_neg, one_div, ← mul_inv]
          exact inv_anti₀ (by positivity) powers
      _ ≤ 1 / 2 * 2 ^ b.exponent := by
          have := zpow_le_zpow_right₀ (by norm_num : (1 : ℚ) ≤ 2) least
          linarith
      _ ≤ (b.significand - 1 / 2) * 2 ^ b.exponent :=
          mul_le_mul_of_nonneg_right (by linarith) scale.le
      _ ≤ q := near.above positive
  · have powers : (2 : ℚ) ^ 1024 < 10 ^ 309 := by
      exact_mod_cast (by decide +kernel : 2 ^ 1024 < 10 ^ 309)
    calc q < 2 ^ (53 + b.exponent) := near.lt_power canonical
      _ ≤ 2 ^ (1024 : ℤ) := zpow_le_zpow_right₀ (by norm_num) (by omega)
      _ < 10 ^ (309 : ℤ) := powers

/-- A decimal in the interval of a double is read as this double. -/
theorem Scaled.toDouble_eq {d : Scaled} {b : Binary} (near : b.Near d.value)
    (above : b.AboveZero) : d.toDouble = b.toFloat := by
  obtain ⟨least, most⟩ := near.moderate above.toCanonical above.positive
  have present : 0 < d.coefficient := by
    apply Nat.pos_of_ne_zero
    intro none
    rw [Scaled.value, none, Nat.cast_zero, zero_mul] at least
    exact absurd (ten_zpow_pos (-330)) (not_lt.2 least)
  obtain ⟨longer, shorter⟩ := digitCount_bounds present
  have scale := ten_zpow_pos d.exponent
  have notHuge : (digitCount d.coefficient : ℤ) - 1 + d.exponent < 309 := by
    rw [← ten_zpow_lt_iff, zpow_add₀ (by norm_num)]
    exact lt_of_le_of_lt (mul_le_mul_of_nonneg_right longer scale.le) most
  have notTiny : -330 < (digitCount d.coefficient : ℤ) + d.exponent := by
    rw [← ten_zpow_lt_iff, zpow_add₀ (by norm_num)]
    exact lt_of_le_of_lt least (mul_lt_mul_of_pos_right shorter scale)
  rw [Scaled.toDouble, if_neg present.ne']
  simp only [gt_iff_lt]
  rw [if_neg (by omega), if_neg (by omega)]
  obtain ⟨coefficient, exponent⟩ := d
  cases exponent with
  | ofNat e =>
      have value : Scaled.value ⟨coefficient, .ofNat e⟩ = coefficient * 10 ^ e := by
        rw [Scaled.value, Int.ofNat_eq_natCast, zpow_natCast]
      rw [value] at near
      refine ofScientific_product present ?_ near above
      have counted : 0 < digitCount coefficient := Nat.length_toDigits_pos
      simp only [Int.ofNat_eq_natCast] at notHuge
      omega
  | negSucc e =>
      have value : Scaled.value ⟨coefficient, .negSucc e⟩ = coefficient / 10 ^ (e + 1) := by
        rw [Scaled.value, zpow_negSucc, div_eq_mul_inv]
      rw [value] at near
      refine ofScientific_quotient present (Nat.succ_pos e) ?_ near above
      have digits := digitCount_le_log2 coefficient
      simp only [Int.negSucc_eq] at notTiny
      dsimp only
      omega

end Formula.Decimal
