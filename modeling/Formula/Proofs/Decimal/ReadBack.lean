import Mathlib.Data.Nat.Cast.Field
import Formula.Proofs.Decimal.Reading

/-!
Constants read back. The fewest digits of a double are taken from the interval of the numbers that
round to it, and integral values are written in all their digits; either text is read as the double.
-/

set_option autoImplicit false

namespace Formula.Decimal

/-! ### Grids -/

theorem unitFactors_scale (e unit : ℤ) : ∃ scale : ℚ, 0 < scale ∧
    ((unitFactors e unit).1 : ℚ) = 2 ^ e * scale ∧
    ((unitFactors e unit).2 : ℚ) = 10 ^ unit * scale := by
  refine ⟨2 ^ (-e).toNat * 10 ^ (-unit).toNat, by positivity, ?_, ?_⟩
  · rw [unitFactors, ← mul_assoc, zpow_mul_toNat two_ne_zero]
    push_cast
    rfl
  · rw [unitFactors, mul_left_comm, zpow_mul_toNat (by norm_num)]
    push_cast
    rfl

theorem factors_le_iff (n point : Nat) (e unit : ℤ) :
    n * (unitFactors e unit).1 ≤ point * (unitFactors e unit).2 ↔
      (n : ℚ) * 2 ^ e ≤ point * 10 ^ unit := by
  obtain ⟨scale, positive, first, second⟩ := unitFactors_scale e unit
  rw [← @Nat.cast_le ℚ, Nat.cast_mul, Nat.cast_mul, first, second, ← mul_assoc, ← mul_assoc]
  exact mul_le_mul_iff_of_pos_right positive

theorem le_factors_iff (n point : Nat) (e unit : ℤ) :
    point * (unitFactors e unit).2 ≤ n * (unitFactors e unit).1 ↔
      (point : ℚ) * 10 ^ unit ≤ n * 2 ^ e := by
  obtain ⟨scale, positive, first, second⟩ := unitFactors_scale e unit
  rw [← @Nat.cast_le ℚ, Nat.cast_mul, Nat.cast_mul, first, second, ← mul_assoc, ← mul_assoc]
  exact mul_le_mul_iff_of_pos_right positive

theorem unitFactors_pos (e unit : ℤ) : 0 < (unitFactors e unit).2 :=
  Nat.mul_pos (Nat.two_pow_pos _) (Nat.pow_pos (by norm_num))

/-- The point of a grid below a binary fraction, and the next one. -/
theorem below_bounds (n : Nat) (e unit : ℤ) :
    ((n * (unitFactors e unit).1 / (unitFactors e unit).2 : ℕ) : ℚ) * 10 ^ unit ≤ n * 2 ^ e ∧
      (n : ℚ) * 2 ^ e <
        ((n * (unitFactors e unit).1 / (unitFactors e unit).2 + 1 : ℕ) : ℚ) * 10 ^ unit := by
  constructor
  · rw [← le_factors_iff]
    exact Nat.div_mul_le_self _ _
  · rw [← not_le, ← le_factors_iff, not_le]
    exact Nat.lt_mul_of_div_lt (Nat.lt_succ_self _) (unitFactors_pos e unit)

/-- The points of a grid that are taken for a double lie in its interval. -/
theorem Binary.contains_iff (b : Binary) (unit : ℤ) (point : Nat) :
    b.interval.contains (unitFactors (b.exponent - 2) unit) point = true ↔
      b.Near (point * 10 ^ unit) := by
  have closed : b.interval.closed = (b.significand % 2 == 0) := rfl
  rw [Interval.contains, closed]
  rcases Nat.mod_two_eq_zero_or_one b.significand with even | odd
  · rw [even, if_pos (by rfl), Bool.and_eq_true, decide_eq_true_eq, decide_eq_true_eq,
      factors_le_iff, le_factors_iff]
    constructor
    · rintro ⟨low, high⟩
      exact ⟨low, high, fun odd => by omega⟩
    · rintro ⟨low, high, -⟩
      exact ⟨low, high⟩
  · rw [odd, if_neg (by decide), Bool.and_eq_true, decide_eq_true_eq, decide_eq_true_eq,
      ← not_le, ← not_le, factors_le_iff, le_factors_iff, not_le, not_le]
    constructor
    · rintro ⟨low, high⟩
      exact ⟨low.le, high.le, fun _ => ⟨low.ne, high.ne⟩⟩
    · rintro ⟨low, high, apart⟩
      exact ⟨lt_of_le_of_ne low (apart odd).1, lt_of_le_of_ne high (apart odd).2⟩

/-! ### The fewest digits -/

theorem Interval.contains_of_pick {i : Interval} {factors : Nat × Nat} {point : Nat}
    (picked : i.pick factors = some point) : i.contains factors point = true := by
  simp only [pick] at picked
  split at picked
  · next first second =>
      split at picked
      · cases picked
        exact first
      · split at picked
        · cases picked
          exact second
        · split at picked
          · cases picked
            exact first
          · cases picked
            exact second
  · next first _ =>
      cases picked
      exact first
  · next _ second =>
      cases picked
      exact second
  · cases picked

theorem Interval.not_contains_of_pick {i : Interval} {factors : Nat × Nat}
    (none : i.pick factors = none) :
    i.contains factors (i.middle * factors.1 / factors.2) = false ∧
      i.contains factors (i.middle * factors.1 / factors.2 + 1) = false := by
  simp only [pick] at none
  split at none
  · split at none
    · cases none
    · split at none
      · cases none
      · split at none <;> cases none
  · cases none
  · cases none
  · next first second => exact ⟨first, second⟩

theorem value_stripZeros (bound : Nat) (d : Scaled) : (stripZeros bound d).value = d.value := by
  induction bound generalizing d with
  | zero => rfl
  | succ bound ih =>
      rw [stripZeros]
      split
      · next tens =>
          have whole : (d.coefficient : ℚ) = 10 * (d.coefficient / 10 : ℕ) := by
            exact_mod_cast (Nat.mul_div_cancel' (Nat.dvd_of_mod_eq_zero tens.2)).symm
          rw [ih, Scaled.value, Scaled.value, whole, zpow_add₀ (by norm_num), zpow_one]
          ring
      · rfl

namespace Binary

variable {b : Binary}

theorem middle_eq (b : Binary) : (b.interval.middle : ℚ) * 2 ^ (b.exponent - 2) = b.size := by
  rw [quarter, size, scaledBy, interval]
  push_cast
  ring

theorem ten_pow_pointPosition_le (canonical : b.Canonical) (positive : 0 < b.significand) :
    (10 : ℚ) ^ (b.pointPosition - 1) ≤ b.size := by
  obtain ⟨low, high⟩ := below_bounds b.significand b.exponent (-330)
  obtain ⟨least, -⟩ := (near_size positive).moderate canonical positive
  have present : 0 < b.significand * (unitFactors b.exponent (-330)).1 /
      (unitFactors b.exponent (-330)).2 := by
    apply Nat.pos_of_ne_zero
    intro none
    rw [none, zero_add, Nat.cast_one, one_mul] at high
    exact absurd least (not_le.2 high)
  have counted := (digitCount_bounds present).1
  have unit := ten_zpow_pos (-330)
  calc (10 : ℚ) ^ (b.pointPosition - 1) = 10 ^ ((digitCount (b.significand *
        (unitFactors b.exponent (-330)).1 / (unitFactors b.exponent (-330)).2) : ℤ) - 1) *
          10 ^ (-330 : ℤ) := by
        rw [← zpow_add₀ (by norm_num), pointPosition]
        congr 1
        ring
    _ ≤ _ * 10 ^ (-330 : ℤ) := mul_le_mul_of_nonneg_right counted unit.le
    _ ≤ b.size := low

/-- The ends of the interval are so far apart that no grid of seventeen digits misses it. -/
theorem interval_wide (canonical : b.Canonical) (positive : 0 < b.significand) :
    b.size / 10 ^ 16 < (b.interval.high - b.interval.low : ℚ) * 2 ^ (b.exponent - 2) := by
  have scale := two_zpow_pos b.exponent
  have high : (b.interval.high : ℚ) = 4 * b.significand + 2 := by
    simp only [interval]
    push_cast
    rfl
  rw [high, quarter, size, scaledBy]
  by_cases edge : b.isEdge
  · rw [interval_low_edge edge, edge.1]
    push_cast
    linarith
  · have bounded : (b.significand : ℚ) < 2 ^ 53 := by exact_mod_cast canonical.bounded
    have wide : (b.significand : ℚ) / 10 ^ 16 < 1 := by linarith
    rw [interval_low_inner edge positive, mul_div_right_comm]
    calc (b.significand : ℚ) / 10 ^ 16 * 2 ^ b.exponent < 1 * 2 ^ b.exponent :=
          mul_lt_mul_of_pos_right wide scale
      _ = (4 * b.significand + 2 - (4 * b.significand - 2)) * (2 ^ b.exponent / 4) := by ring

/-- Seventeen digits suffice. -/
theorem pick_seventeen (canonical : b.Canonical) (positive : 0 < b.significand) :
    b.interval.pick (unitFactors (b.exponent - 2) (b.pointPosition - 17)) ≠ none := by
  intro none
  obtain ⟨first, second⟩ := Interval.not_contains_of_pick none
  obtain ⟨below, above⟩ := below_bounds b.interval.middle (b.exponent - 2) (b.pointPosition - 17)
  obtain ⟨low, high, odd⟩ := near_size positive
  rw [Bool.eq_false_iff, ne_eq, contains_iff] at first second
  rw [middle_eq] at below above
  generalize b.interval.middle * (unitFactors (b.exponent - 2) (b.pointPosition - 17)).1 /
    (unitFactors (b.exponent - 2) (b.pointPosition - 17)).2 = point at first second below above
  have missedLow : (point : ℚ) * 10 ^ (b.pointPosition - 17) ≤
      b.interval.low * 2 ^ (b.exponent - 2) := by
    by_contra inside
    rw [not_le] at inside
    refine first ⟨inside.le, below.trans high, fun isOdd => ⟨inside.ne, ?_⟩⟩
    exact (lt_of_le_of_lt below (lt_of_le_of_ne high (odd isOdd).2)).ne
  have missedHigh : (b.interval.high : ℚ) * 2 ^ (b.exponent - 2) ≤
      ((point + 1 : ℕ) : ℚ) * 10 ^ (b.pointPosition - 17) := by
    by_contra inside
    rw [not_le] at inside
    refine second ⟨low.trans above.le, inside.le, fun isOdd => ⟨?_, inside.ne⟩⟩
    exact (lt_of_le_of_lt low above).ne
  have unit : (10 : ℚ) ^ (b.pointPosition - 17) = 10 ^ (b.pointPosition - 1) / 10 ^ 16 := by
    rw [(by ring : b.pointPosition - 17 = b.pointPosition - 1 - 16), zpow_sub₀ (by norm_num)]
    norm_num
  have large := ten_pow_pointPosition_le canonical positive
  have wide := interval_wide canonical positive
  push_cast at missedHigh
  rw [unit] at missedLow missedHigh
  linarith

theorem near_shortest (canonical : b.Canonical) (positive : 0 < b.significand) :
    b.Near b.shortest.value := by
  rw [shortest]
  simp only
  split
  · next d found =>
      obtain ⟨digits, -, picked⟩ := List.exists_of_findSome?_eq_some found
      rw [Option.map_eq_some_iff] at picked
      obtain ⟨point, picked, rfl⟩ := picked
      rw [value_stripZeros, Scaled.value, ← contains_iff]
      exact Interval.contains_of_pick picked
  · next missed =>
      rw [List.findSome?_eq_none_iff] at missed
      have last := missed 16 (List.mem_range.2 (by norm_num))
      rw [Option.map_eq_none_iff] at last
      exact absurd last (pick_seventeen canonical positive)

/-! ### Texts -/

/-- An integral value is the size of its double. -/
theorem natAbs_integer? {n : ℤ} (integral : b.integer? = some n) : (n.natAbs : ℚ) = b.size := by
  obtain ⟨negative, significand, exponent⟩ := b
  cases exponent with
  | ofNat e =>
      have whole : n = signed negative (significand * 2 ^ e) := (Option.some.inj integral).symm
      rw [whole, natAbs_signed, size, scaledBy, Int.ofNat_eq_natCast, zpow_natCast]
      push_cast
      rfl
  | negSucc e =>
      simp only [integer?] at integral
      split at integral
      · next divides =>
          have whole : n = signed negative (significand / 2 ^ (e + 1)) :=
            (Option.some.inj integral).symm
          rw [whole, natAbs_signed, size, scaledBy, zpow_negSucc,
            Nat.cast_div (Nat.dvd_of_mod_eq_zero divides) (by positivity), div_eq_mul_inv]
          push_cast
          rfl
      · cases integral

theorem near_sizeChars (canonical : b.Canonical) (positive : 0 < b.significand) :
    b.Near (readScaled b.sizeChars).value := by
  rw [sizeChars]
  split
  · next n integral =>
      rw [readScaled_digits (digitsOf_isDigit _), valueOf_digitsOf, Scaled.value, zpow_zero,
        mul_one, natAbs_integer? integral]
      exact near_size positive
  · rw [Layout.writeSize, if_neg positive.ne']
    simp only [Layout.write, Layout.constant, ↓reduceIte]
    rw [value_placePoint, add_sub_cancel_left]
    exact near_shortest canonical positive

def abs (b : Binary) : Binary := { b with negative := false }

theorem canonical_abs (canonical : b.Canonical) : b.abs.Canonical :=
  ⟨canonical.bounded, canonical.least, canonical.greatest, canonical.normal⟩

theorem sizeChars_zero (zero : b.significand = 0) : b.sizeChars = ['0'] := by
  obtain ⟨negative, significand, exponent⟩ := b
  have integral : Binary.integer? ⟨negative, 0, exponent⟩ = some 0 := by
    cases exponent <;> cases negative <;> simp [integer?, signed]
  cases zero
  rw [sizeChars, integral]
  rfl

theorem readUnsigned_sizeChars (canonical : b.Canonical) :
    readUnsigned b.sizeChars = b.abs.toFloat := by
  rw [readUnsigned_eq]
  by_cases zero : b.significand = 0
  · have least : b.exponent = -1074 := canonical.normal.resolve_left (by omega)
    have none : b.abs = ⟨false, 0, -1074⟩ := by
      rw [abs, zero, least]
    rw [sizeChars_zero zero, none]
    decide
  · have positive := Nat.pos_of_ne_zero zero
    obtain ⟨low, high, odd⟩ := near_sizeChars canonical positive
    exact Scaled.toDouble_eq ⟨low, high, odd⟩ ⟨canonical_abs canonical, rfl, positive⟩

end Binary

/-- The text of a constant with a clear sign bit is read as this constant. -/
theorem readUnsigned_sizeChars {x : Float} {b : Binary} (decoded : decode x = .finite b)
    (plain : b.negative = false) : readUnsigned (sizeChars x) = x := by
  have same : b.abs = b := by
    rw [Binary.abs, ← plain]
  rw [sizeChars, decoded]
  simp only
  rw [Binary.readUnsigned_sizeChars (canonical_of_decode decoded), same]
  exact (eq_toFloat_of_decode decoded).symm

end Formula.Decimal
