import Formula.Proofs.Decimal.Differences
import Formula.Proofs.Decimal.Units
import Formula.Proofs.Expr.ExactValue

/-!
Differences are rounded to the double near the exact difference. In particular a finite double less one
is finite, it is zero only for one and one only for two. Huge numbers stay below the greatest double,
and the doubles about two are too far from each other for any but two to be rounded to one.
-/

set_option autoImplicit false

namespace Formula.Decimal

open Float.Model (UnpackedFloat Format)
open Float.Model.UnpackedFloat

/-! ### Differences of unpacked doubles -/

theorem signOf_apply (negative : Bool) (n : Nat) : (signOf negative).apply n = signed negative n := by
  cases negative <;> rfl

/-- A mantissa is shifted to a lower exponent without a change of the number. -/
theorem signed_shiftLeft (negative : Bool) (m : Nat) {d e : ℤ} (below : e ≤ d) :
    ((signed negative (m <<< (d - e).toNat) : ℤ) : ℚ) * 2 ^ e = signed negative m * 2 ^ d := by
  have exponents : (2 : ℚ) ^ (d - e).toNat * 2 ^ e = 2 ^ d := by
    rw [← zpow_natCast, Int.toNat_of_nonneg (by omega), ← two_zpow_add, Int.sub_add_cancel]
  rw [← exponents, Nat.shiftLeft_eq]
  cases negative <;>
    · simp only [signed]
      push_cast
      ring

theorem Binary.abs_value (b : Binary) : |b.value| = b.size := by
  have scale := two_zpow_pos b.exponent
  have size : (0 : ℚ) ≤ b.significand := Nat.cast_nonneg _
  rw [value, Binary.size, scaledBy, abs_mul, abs_of_pos scale]
  cases b.negative <;> simp [signed]

theorem Binary.value_neg_iff {b : Binary} (positive : 0 < b.significand) :
    b.value < 0 ↔ b.negative = true := by
  have scale := two_zpow_pos b.exponent
  have above : (0 : ℚ) < b.significand := Nat.cast_pos.2 positive
  rw [value]
  cases b.negative with
  | false =>
      have product := mul_pos above scale
      simpa [signed] using product.le
  | true =>
      have product := mul_pos above scale
      simpa [signed] using product

theorem Binary.value_of_zero {b : Binary} (none : b.significand = 0) : b.value = 0 := by
  rw [value, none]
  cases b.negative <;> simp [signed]

/-- Zero less a number is this number with the other sign. -/
theorem isNearest_zero_sub {b c : Binary} (none : b.significand = 0) (canonical : c.Canonical)
    (positive : 0 < c.significand) (differ : b.value ≠ c.value) :
    IsNearest (b.value < c.value) |b.value - c.value|
      (sub Format.binary64 b.unpacked c.unpacked) := by
  have sign : decide (0 < c.value) = !c.negative := by
    have below := Binary.value_neg_iff positive
    rw [Binary.value_of_zero none] at differ
    cases negative : c.negative with
    | false => simpa using lt_of_le_of_ne (not_lt.1 (by simp [below, negative])) differ
    | true => simpa using (below.2 negative).le
  rw [Binary.value_of_zero none, zero_sub, abs_neg, Binary.abs_value, sign]
  refine ⟨c.significand, c.exponent, positive, ?_, canonical.isRounded, Binary.near_size positive⟩
  rw [Binary.unpacked, dif_pos none, Binary.unpacked_of_pos positive]
  cases c.negative <;> rfl

/-- The difference of two numbers is rounded with its sign. -/
theorem isNearest_sub {b c : Binary} (canonical : b.Canonical) (canonical' : c.Canonical)
    (positive : 0 < c.significand) (differ : b.value ≠ c.value) :
    IsNearest (b.value < c.value) |b.value - c.value|
      (sub Format.binary64 b.unpacked c.unpacked) := by
  by_cases none : b.significand = 0
  · exact isNearest_zero_sub none canonical' positive differ
  · have above := Nat.pos_of_ne_zero none
    rw [Binary.unpacked_of_pos above, Binary.unpacked_of_pos positive]
    generalize lowest : min b.exponent c.exponent = e
    have least : -1074 ≤ e := lowest ▸ le_min canonical.least canonical'.least
    generalize difference : signed b.negative (b.significand <<< (b.exponent - e).toNat) -
      signed c.negative (c.significand <<< (c.exponent - e).toNat) = m
    have exact : b.value - c.value = m * 2 ^ e := by
      rw [← difference, Int.cast_sub, sub_mul, signed_shiftLeft _ _ (by omega),
        signed_shiftLeft _ _ (by omega)]
      rfl
    have nonzero : m ≠ 0 := by
      rintro rfl
      rw [Int.cast_zero, zero_mul] at exact
      exact differ (sub_eq_zero.1 exact)
    have sign : decide (b.value < c.value) = decide (m < 0) := by
      rw [decide_eq_decide, ← sub_neg, exact, Rat.mul_neg_iff_of_pos_right (two_zpow_pos e),
        Int.cast_lt_zero]
    have unfolded : sub Format.binary64
        (.finite (signOf b.negative) b.significand b.exponent above)
        (.finite (signOf c.negative) c.significand c.exponent positive) =
          UnpackedFloat.normalize Format.binary64 m e .positive := by
      rw [← difference, ← lowest, ← signOf_apply, ← signOf_apply]
      rfl
    rw [unfolded, exact, sign]
    exact isNearest_normalize nonzero least .positive

/-! ### Differences from one -/

theorem two_mul_two_zpow_le {d e : ℤ} (less : d < e) : (2 : ℚ) * 2 ^ d ≤ 2 ^ e := by
  rw [← zpow_one_add₀ (by norm_num)]
  exact zpow_le_zpow_right₀ (by norm_num) (by omega)

/-- The greatest size of a double. -/
theorem Binary.Canonical.size_le {b : Binary} (canonical : b.Canonical) :
    b.size ≤ (2 ^ 53 - 1) * 2 ^ (971 : ℤ) := by
  have bounded : (b.significand : ℚ) ≤ 2 ^ 53 - 1 := by
    have below : (b.significand : ℚ) + 1 ≤ 2 ^ 53 := by exact_mod_cast canonical.bounded
    linarith
  have exponents : (2 : ℚ) ^ b.exponent ≤ 2 ^ (971 : ℤ) :=
    zpow_le_zpow_right₀ (by norm_num) canonical.greatest
  exact mul_le_mul bounded exponents (two_zpow_pos _).le (by norm_num)

/-- What is rounded from no more than one beyond the greatest double is not infinite. -/
theorem exponent_le_of_near {n : Nat} {e : ℤ} {x : ℚ} (above : 0 < n) (rounded : IsRounded n e)
    (near : Binary.Near ⟨false, n, e⟩ x) (most : x ≤ (2 ^ 53 - 1) * 2 ^ (971 : ℤ) + 1) :
    e ≤ 971 := by
  by_contra great
  have normal := rounded.normal.resolve_right (by omega)
  have scale := two_zpow_pos e
  have close : ((2 : ℚ) ^ 52 - 1 / 4) * 2 ^ e ≤ x := by
    by_cases edge : Binary.isEdge ⟨false, n, e⟩
    · have low := near.above_edge edge
      rw [show n = 2 ^ 52 from edge.1] at low
      push_cast at low
      exact low
    · have inner : 2 ^ 52 + 1 ≤ n := by
        have other : n ≠ 2 ^ 52 := fun same => edge ⟨same, by dsimp only; omega⟩
        omega
      have inner' : (2 : ℚ) ^ 52 + 1 ≤ n := by exact_mod_cast inner
      exact (mul_le_mul_of_nonneg_right (by linarith) scale.le).trans (near.above above)
  have exponents := two_mul_two_zpow_le (show 971 < e by omega)
  have large : (2 : ℚ) ^ (1 : ℤ) < 2 ^ (971 : ℤ) := (two_zpow_lt_iff _ _).2 (by norm_num)
  generalize (2 : ℚ) ^ (971 : ℤ) = unit at *
  linarith

/-- Next to a power of two there is no other double within half of the lesser distance. -/
theorem Binary.Canonical.eq_power {b : Binary} (canonical : b.Canonical) {e : ℤ} (inner : -1074 < e)
    (low : ((2 : ℚ) ^ 52 - 1 / 2) * 2 ^ e < b.value)
    (high : b.value < ((2 : ℚ) ^ 52 + 1 / 2) * 2 ^ e) : b = ⟨false, 2 ^ 52, e⟩ := by
  have scale := two_zpow_pos e
  have plain : b.negative = false := by
    rw [← Bool.not_eq_true]
    intro negative
    have below : b.value ≤ 0 := by
      rw [Binary.value, negative]
      have size := mul_nonneg (Nat.cast_nonneg (α := ℚ) b.significand) (two_zpow_pos b.exponent).le
      simpa [signed] using size
    have above : 0 < ((2 : ℚ) ^ 52 - 1 / 2) * 2 ^ e := mul_pos (by norm_num) scale
    linarith
  obtain ⟨negative, m, d⟩ := b
  obtain ⟨bounded, least, greatest, normal⟩ := canonical
  dsimp only at plain bounded normal
  subst plain
  have value : Binary.value ⟨false, m, d⟩ = m * 2 ^ d := by simp [Binary.value, signed]
  rw [value] at low high
  rcases lt_trichotomy d e with less | same | more
  · have bounded' : (m : ℚ) + 1 ≤ 2 ^ 53 := by exact_mod_cast bounded
    have half := two_mul_two_zpow_le less
    have product : (m : ℚ) * 2 ^ d ≤ (2 ^ 53 - 1) * (2 ^ e / 2) :=
      mul_le_mul (by linarith) (by linarith) (two_zpow_pos d).le (by norm_num)
    linarith
  · subst same
    have above : (2 ^ 52 : ℕ) ≤ m := by
      have close := lt_of_mul_lt_mul_right low scale.le
      have close' : ((2 ^ 52 : ℕ) : ℚ) < (m + 1 : ℕ) := by
        push_cast
        linarith
      exact Nat.lt_succ_iff.1 (Nat.cast_lt.1 close')
    have below : m ≤ 2 ^ 52 := by
      have close := lt_of_mul_lt_mul_right high scale.le
      have close' : (m : ℚ) < (2 ^ 52 + 1 : ℕ) := by
        push_cast
        linarith
      exact Nat.lt_succ_iff.1 (Nat.cast_lt.1 close')
    rw [le_antisymm below above]
  · have normal' : (2 : ℚ) ^ 52 ≤ m := by exact_mod_cast normal.resolve_right (by omega)
    have product : (2 : ℚ) ^ 52 * (2 * 2 ^ e) ≤ m * 2 ^ d :=
      mul_le_mul normal' (two_mul_two_zpow_le more) (by positivity) (by positivity)
    linarith

/-- What is rounded from a number below the overflow is a finite double. -/
theorem IsNearest.decode_pack {negative : Bool} {x : ℚ} {u : UnpackedFloat}
    (nearest : IsNearest negative x u) (most : x ≤ (2 ^ 53 - 1) * 2 ^ (971 : ℤ) + 1) :
    ∃ n e, 0 < n ∧ decode (.ofModel (.pack u)) = .finite ⟨negative, n, e⟩ ∧
      Binary.Near ⟨false, n, e⟩ x := by
  obtain ⟨n, e, above, rfl, rounded, near⟩ := nearest
  refine ⟨n, e, above, ?_, near⟩
  have canonical : Binary.Canonical ⟨negative, n, e⟩ :=
    ⟨rounded.bounded, rounded.least, exponent_le_of_near above rounded near most, rounded.normal⟩
  have decoded := decode_toFloat canonical
  rwa [Binary.toFloat, Binary.unpacked_of_pos above] at decoded

section

variable {x : Float} {b : Binary}

/-- One less than a finite double other than one is a finite double other than zero. -/
theorem decode_sub_one (decoded : decode x = .finite b) (other : x ≠ 1.0) :
    ∃ n e, 0 < n ∧ decode (x - 1.0) = .finite ⟨b.value < 1, n, e⟩ ∧
      Binary.Near ⟨false, n, e⟩ |b.value - 1| := by
  have canonical := canonical_of_decode decoded
  have one : Binary.value ⟨false, 2 ^ 52, -52⟩ = 1 := by norm_num [Binary.value, signed]
  have differ : b.value ≠ Binary.value ⟨false, 2 ^ 52, -52⟩ := by
    rw [one]
    intro same
    refine other ((eq_toFloat_of_decode decoded).trans ?_)
    rw [canonical.eq_power (show -1074 < -52 by norm_num) (by rw [same]; norm_num)
      (by rw [same]; norm_num)]
    exact (eq_toFloat_of_decode decode_one).symm
  have nearest := isNearest_sub canonical (canonical_of_decode decode_one) (by norm_num) differ
  rw [one] at nearest
  have difference : x - 1.0 = .ofModel (.pack (sub Format.binary64 b.unpacked
      (Binary.unpacked ⟨false, 2 ^ 52, -52⟩))) := by
    change Float.ofModel (.pack (sub Format.binary64 x.toModel.unpack
      (1.0 : Float).toModel.unpack)) = _
    rw [unpack_eq, unpack_eq, decoded, decode_one]
    rfl
  rw [difference]
  refine nearest.decode_pack ((abs_sub b.value 1).trans ?_)
  rw [Binary.abs_value, abs_one]
  exact add_le_add_left canonical.size_le 1

theorem isFinite_sub_one (finite : x.isFinite = true) : (x - 1.0).isFinite = true := by
  obtain ⟨b, decoded⟩ := decode_of_isFinite finite
  by_cases one : x = 1.0
  · rw [one]
    rfl
  · obtain ⟨n, e, -, less, -⟩ := decode_sub_one decoded one
    exact isFinite_of_decode less

theorem sub_one_beq_zero (finite : x.isFinite = true) :
    (x - 1.0 == 0.0) = true ↔ x = 1.0 := by
  constructor
  · intro zero
    by_contra other
    obtain ⟨b, decoded⟩ := decode_of_isFinite finite
    obtain ⟨n, e, above, less, -⟩ := decode_sub_one decoded other
    obtain ⟨negative, none⟩ := decode_of_beq_zero zero
    cases none.symm.trans less
    exact absurd above (lt_irrefl 0)
  · rintro rfl
    rfl

/-- Less one, only two is one: no other double is so near to two that the difference is rounded to one. -/
theorem sub_one_beq_one (finite : x.isFinite = true) :
    (x - 1.0 == 1.0) = true ↔ x = 2.0 := by
  constructor
  · intro one
    obtain ⟨b, decoded⟩ := decode_of_isFinite finite
    have other : x ≠ 1.0 := by
      rintro rfl
      exact absurd one (by decide)
    obtain ⟨n, e, above, less, near⟩ := decode_sub_one decoded other
    rw [eq_one_of_beq one, decode_one] at less
    obtain ⟨sign, rfl, rfl⟩ : false = decide (b.value < 1) ∧ 2 ^ 52 = n ∧ -52 = e := by
      simpa only [Decoded.finite.injEq, Binary.mk.injEq] using less
    have least : 1 ≤ b.value := not_lt.1 (of_decide_eq_false sign.symm)
    have low := near.above_edge ⟨rfl, by norm_num⟩
    have high := near.below
    rw [abs_of_nonneg (sub_nonneg.2 least)] at low high
    norm_num at low high
    refine (eq_toFloat_of_decode decoded).trans ?_
    rw [(canonical_of_decode decoded).eq_power (show -1074 < -51 by norm_num) (by norm_num; linarith)
      (by norm_num; linarith)]
    exact (eq_toFloat_of_decode decode_two).symm
  · rintro rfl
    rfl

end

end Formula.Decimal
