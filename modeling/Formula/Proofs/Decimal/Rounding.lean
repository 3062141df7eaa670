import Mathlib.Algebra.Order.Field.Power
import Mathlib.Tactic.FieldSimp
import Mathlib.Tactic.Linarith
import Mathlib.Tactic.Positivity
import Mathlib.Tactic.Ring
import Formula.Decimal.Shortest
import Formula.Proofs.Decimal.Doubles

/-!
Rounding to doubles. A rational number that lies nearer to a double than to its neighbours is rounded
to this double, ties going to even significands.
-/

set_option autoImplicit false

namespace Formula.Decimal

open Float.Model (UnpackedFloat Format totalExponent)
open Float.Model.UnpackedFloat

/-! ### Mantissas -/

/-- A mantissa with its round and sticky bits stands for a number. -/
def Holds (em : ExtendedMantissa) (x : ℚ) : Prop :=
  match em.roundBit, em.stickyBit with
  | false, false => x = em.mantissa
  | false, true => em.mantissa < x ∧ x < em.mantissa + 1 / 2
  | true, false => x = em.mantissa + 1 / 2
  | true, true => em.mantissa + 1 / 2 < x ∧ x < em.mantissa + 1

theorem holds_of_quotient {num den : Nat} (positive : 0 < den) :
    Holds (.ofMantissaAndAccuracy (num / den) (accuracyOfFraction (num % den) den))
      (num / den : ℚ) := by
  have below := Nat.mod_lt num positive
  have whole : ((num / den : ℕ) : ℚ) + (num % den : ℕ) / den = (num / den : ℚ) := by
    have sum : (den : ℚ) * (num / den : ℕ) + (num % den : ℕ) = num := by
      exact_mod_cast Nat.div_add_mod num den
    field_simp
    linarith
  have positive' : (0 : ℚ) < den := by exact_mod_cast positive
  rw [← whole, accuracyOfFraction]
  split
  · next none =>
      rw [none]
      simp [Holds, ExtendedMantissa.ofMantissaAndAccuracy]
  · next some =>
      have some' : (0 : ℚ) < (num % den : ℕ) := by exact_mod_cast Nat.pos_of_ne_zero some
      have fraction : (0 : ℚ) < (num % den : ℕ) / den := by positivity
      rcases Nat.lt_trichotomy (2 * (num % den)) den with less | same | more
      · rw [Nat.compare_eq_lt.2 less]
        have less' : 2 * ((num % den : ℕ) : ℚ) < den := by exact_mod_cast less
        have half : ((num % den : ℕ) : ℚ) / den < 1 / 2 := by
          rw [div_lt_div_iff₀ positive' (by norm_num)]
          linarith
        exact ⟨by simpa [ExtendedMantissa.ofMantissaAndAccuracy] using fraction,
          by simpa [ExtendedMantissa.ofMantissaAndAccuracy] using half⟩
      · rw [Nat.compare_eq_eq.2 same]
        have same' : 2 * ((num % den : ℕ) : ℚ) = den := by exact_mod_cast same
        have half : ((num % den : ℕ) : ℚ) / den = 1 / 2 := by
          rw [div_eq_div_iff positive'.ne' (by norm_num)]
          linarith
        simp only [Holds, ExtendedMantissa.ofMantissaAndAccuracy, half]
      · rw [Nat.compare_eq_gt.2 more]
        have more' : (den : ℚ) < 2 * (num % den : ℕ) := by exact_mod_cast more
        have below' : ((num % den : ℕ) : ℚ) < den := by exact_mod_cast below
        have half : 1 / 2 < ((num % den : ℕ) : ℚ) / den := by
          rw [div_lt_div_iff₀ (by norm_num) positive']
          linarith
        have one : ((num % den : ℕ) : ℚ) / den < 1 := (div_lt_one positive').2 below'
        exact ⟨by simpa [ExtendedMantissa.ofMantissaAndAccuracy] using half,
          by simpa [ExtendedMantissa.ofMantissaAndAccuracy] using one⟩

theorem holds_exact (mantissa : Nat) : Holds (.ofMantissaAndAccuracy mantissa .exact) mantissa :=
  rfl

theorem Holds.shiftRightOne {em : ExtendedMantissa} {x : ℚ} (holds : Holds em x) :
    Holds em.shiftRightOne (x / 2) := by
  obtain ⟨mantissa, roundBit, stickyBit⟩ := em
  have whole : (mantissa : ℚ) = 2 * (mantissa / 2 : ℕ) + (mantissa % 2 : ℕ) := by
    exact_mod_cast (Nat.div_add_mod mantissa 2).symm
  rcases Nat.mod_two_eq_zero_or_one mantissa with even | odd
  · rw [even] at whole
    push_cast at whole
    cases roundBit <;> cases stickyBit <;>
      simp only [Holds, ExtendedMantissa.shiftRightOne, even, whole, bne_self_eq_false,
        Bool.or_false, Bool.or_true] at holds ⊢
    · linarith
    · exact ⟨by linarith [holds.1], by linarith [holds.2]⟩
    · exact ⟨by linarith, by linarith⟩
    · exact ⟨by linarith [holds.1], by linarith [holds.2]⟩
  · rw [odd] at whole
    push_cast at whole
    have bit : (1 != 0) = true := rfl
    cases roundBit <;> cases stickyBit <;>
      simp only [Holds, ExtendedMantissa.shiftRightOne, odd, whole, bit, Bool.or_false,
        Bool.or_true] at holds ⊢
    · linarith
    · exact ⟨by linarith [holds.1], by linarith [holds.2]⟩
    · exact ⟨by linarith, by linarith⟩
    · exact ⟨by linarith [holds.1], by linarith [holds.2]⟩

theorem Holds.shiftRight {em : ExtendedMantissa} {x : ℚ} (holds : Holds em x) (k : Nat) :
    Holds (em >>> k) (x / 2 ^ k) := by
  induction k with
  | zero =>
      rw [pow_zero, div_one]
      exact holds
  | succ k ih =>
      have shifted := ih.shiftRightOne
      rw [div_div, ← pow_succ] at shifted
      exact shifted

/-- A natural number is as near to a number as rounding takes it: up to a half, and even numbers up
to a tie. -/
structure Rounds (m : Nat) (x : ℚ) : Prop where
  low : (m : ℚ) - 1 / 2 ≤ x
  high : x ≤ m + 1 / 2
  odd : m % 2 = 1 → (m : ℚ) - 1 / 2 ≠ x ∧ x ≠ m + 1 / 2

theorem Holds.roundedMantissa {em : ExtendedMantissa} {x : ℚ} {m : Nat} (holds : Holds em x)
    (rounds : Rounds m x) : em.roundedMantissa = m := by
  obtain ⟨mantissa, roundBit, stickyBit⟩ := em
  obtain ⟨low, high, odd⟩ := rounds
  cases roundBit <;> cases stickyBit <;>
    simp only [Holds, ExtendedMantissa.roundedMantissa, ExtendedMantissa.accuracy,
      Accuracy.roundToNearestEven] at holds ⊢
  · have below : 2 * (m : ℚ) ≤ 2 * mantissa + 1 := by linarith
    have above : 2 * (mantissa : ℚ) ≤ 2 * m + 1 := by linarith
    have below' : 2 * m ≤ 2 * mantissa + 1 := by exact_mod_cast below
    have above' : 2 * mantissa ≤ 2 * m + 1 := by exact_mod_cast above
    omega
  · have below : (m : ℚ) < mantissa + 1 := by linarith [holds.2]
    have above : (mantissa : ℚ) < m + 1 := by linarith [holds.1]
    have below' : m < mantissa + 1 := by exact_mod_cast below
    have above' : mantissa < m + 1 := by exact_mod_cast above
    omega
  · have below : (m : ℚ) ≤ mantissa + 1 := by linarith
    have above : (mantissa : ℚ) ≤ m := by linarith
    have below' : m ≤ mantissa + 1 := by exact_mod_cast below
    have above' : mantissa ≤ m := by exact_mod_cast above
    -- At a tie the number taken is the even one.
    rcases Nat.mod_two_eq_zero_or_one m with even | isOdd
    · omega
    · obtain ⟨lower, upper⟩ := odd isOdd
      rcases Nat.lt_or_ge mantissa m with less | more
      · have next : (m : ℚ) = mantissa + 1 := by exact_mod_cast (show m = mantissa + 1 by omega)
        exact absurd (by linarith) lower
      · have same : (m : ℚ) = mantissa := by exact_mod_cast (show m = mantissa by omega)
        exact absurd (by linarith) upper
  · have below : (m : ℚ) < mantissa + 2 := by linarith [holds.2]
    have above : (mantissa : ℚ) < m := by linarith [holds.1]
    have below' : m < mantissa + 2 := by exact_mod_cast below
    have above' : mantissa < m := by exact_mod_cast above
    omega

theorem Holds.floor {em : ExtendedMantissa} {x : ℚ} (holds : Holds em x) :
    (em.mantissa : ℚ) ≤ x ∧ x < em.mantissa + 1 := by
  obtain ⟨mantissa, roundBit, stickyBit⟩ := em
  cases roundBit <;> cases stickyBit <;> simp only [Holds] at holds ⊢
  · exact ⟨by linarith, by linarith⟩
  · exact ⟨by linarith [holds.1], by linarith [holds.2]⟩
  · exact ⟨by linarith, by linarith⟩
  · exact ⟨by linarith [holds.1], by linarith [holds.2]⟩

/-! ### Exponents -/

theorem two_zpow_pos (e : ℤ) : (0 : ℚ) < 2 ^ e := zpow_pos (by norm_num) e

theorem two_zpow_lt_iff (d e : ℤ) : (2 : ℚ) ^ d < 2 ^ e ↔ d < e :=
  zpow_lt_zpow_iff_right₀ (by norm_num)

theorem two_zpow_add (d e : ℤ) : (2 : ℚ) ^ (d + e) = 2 ^ d * 2 ^ e :=
  zpow_add₀ (by norm_num) d e

theorem targetExponent_eq (total : ℤ) :
    Format.binary64.targetExponent total = max (total - 53) (-1074) := rfl

/-- The total exponent of a number says between which powers of two it lies. -/
theorem totalExponent_bounds {mantissa : Nat} (positive : mantissa ≠ 0) (exponent : ℤ) {x : ℚ}
    (low : (mantissa : ℚ) ≤ x) (high : x < mantissa + 1) :
    (2 : ℚ) ^ (totalExponent mantissa exponent - 1) ≤ x * 2 ^ exponent ∧
      x * 2 ^ exponent < 2 ^ totalExponent mantissa exponent := by
  have scale := two_zpow_pos exponent
  have below : ((2 ^ mantissa.log2 : ℕ) : ℚ) ≤ mantissa := by
    exact_mod_cast Nat.log2_self_le positive
  have above : (mantissa : ℚ) + 1 ≤ (2 ^ (mantissa.log2 + 1) : ℕ) := by
    exact_mod_cast Nat.lt_log2_self
  rw [totalExponent]
  constructor
  · have split : (mantissa.log2 : ℤ) + 1 + exponent - 1 = mantissa.log2 + exponent := by ring
    rw [split, two_zpow_add, zpow_natCast]
    push_cast at below
    exact mul_le_mul_of_nonneg_right (by linarith) scale.le
  · rw [two_zpow_add, ← Nat.cast_add_one, zpow_natCast]
    push_cast at above
    exact mul_lt_mul_of_pos_right (by linarith) scale

/-! ### Rounded significands -/

/-- A significand and an exponent that rounding leaves alone. The exponent may be too great for a
double. -/
structure IsRounded (m : Nat) (e : ℤ) : Prop where
  bounded : m < 2 ^ 53
  least : -1074 ≤ e
  normal : 2 ^ 52 ≤ m ∨ e = -1074

namespace IsRounded

variable {m : Nat} {e : ℤ}

theorem targetExponent (rounded : IsRounded m e) (positive : 0 < m) :
    Format.binary64.targetExponent (totalExponent m e) = e := by
  have above := (Nat.log2_lt positive.ne').2 rounded.bounded
  have least := rounded.least
  rw [targetExponent_eq, totalExponent]
  rcases rounded.normal with normal | subnormal
  · have below : 52 ≤ m.log2 := (Nat.le_log2 positive.ne').2 normal
    omega
  · omega

theorem shift_self (rounded : IsRounded m e) (positive : 0 < m) :
    shiftToTargetExponent Format.binary64 m e .exact = (⟨m, false, false⟩, e) := by
  simp only [shiftToTargetExponent, rounded.targetExponent positive, shiftToExponent, Int.sub_self]
  exact congrArg (Prod.mk _) (Int.add_zero _)

end IsRounded

/-! ### Finite doubles -/

/-- A number lies in the interval of those that round to a positive double. -/
structure Binary.Near (b : Binary) (q : ℚ) : Prop where
  low : (b.interval.low : ℚ) * 2 ^ (b.exponent - 2) ≤ q
  high : q ≤ (b.interval.high : ℚ) * 2 ^ (b.exponent - 2)
  odd : b.significand % 2 = 1 →
    (b.interval.low : ℚ) * 2 ^ (b.exponent - 2) ≠ q ∧
      q ≠ (b.interval.high : ℚ) * 2 ^ (b.exponent - 2)

namespace Binary

variable {b : Binary} {q : ℚ}

theorem quarter (e : ℤ) : (2 : ℚ) ^ (e - 2) = 2 ^ e / 4 := by
  rw [sub_eq_add_neg, two_zpow_add]
  norm_num
  ring

/-- A double at the lower edge of its power of two has a neighbour at half the distance. -/
def isEdge (b : Binary) : Prop := b.significand = 2 ^ 52 ∧ b.exponent ≠ -1074

theorem interval_low_edge (edge : b.isEdge) : (b.interval.low : ℚ) = 4 * b.significand - 1 := by
  have low : b.interval.low = 2 ^ 54 - 1 := by
    simp only [interval, edge.1, edge.2, bne_iff_ne, ne_eq, not_false_eq_true, decide_true,
      Bool.true_and, ↓reduceIte]
    norm_num
  rw [low, edge.1]
  norm_num

theorem interval_low_inner (inner : ¬ b.isEdge) (positive : 0 < b.significand) :
    (b.interval.low : ℚ) = 4 * b.significand - 2 := by
  have low : b.interval.low = 4 * b.significand - 2 := by
    simp only [interval]
    rw [if_neg]
    intro edge
    rw [Bool.and_eq_true, decide_eq_true_eq, bne_iff_ne] at edge
    exact inner edge
  rw [low, Nat.cast_sub (by omega)]
  push_cast
  ring

theorem Near.above_edge (near : b.Near q) (edge : b.isEdge) :
    ((b.significand : ℚ) - 1 / 4) * 2 ^ b.exponent ≤ q := by
  have least := near.low
  rw [quarter, interval_low_edge edge] at least
  linarith

theorem Near.above (near : b.Near q) (positive : 0 < b.significand) :
    ((b.significand : ℚ) - 1 / 2) * 2 ^ b.exponent ≤ q := by
  by_cases edge : b.isEdge
  · have scale := two_zpow_pos b.exponent
    have least := near.above_edge edge
    linarith
  · have least := near.low
    rw [quarter, interval_low_inner edge positive] at least
    linarith

theorem Near.below (near : b.Near q) : q ≤ ((b.significand : ℚ) + 1 / 2) * 2 ^ b.exponent := by
  have most := near.high
  simp only [quarter, interval] at most
  push_cast at most
  linarith

/-- In units of the last place a number of the interval is rounded to the significand. -/
theorem Near.rounds (near : b.Near q) (positive : 0 < b.significand) :
    Rounds b.significand (q / 2 ^ b.exponent) := by
  have scale := two_zpow_pos b.exponent
  refine ⟨(le_div_iff₀ scale).2 (near.above positive), (div_le_iff₀ scale).2 near.below, ?_⟩
  intro odd
  have inner : ¬ b.isEdge := by
    rintro ⟨edge, -⟩
    rw [edge] at odd
    norm_num at odd
  obtain ⟨low, high⟩ := near.odd odd
  rw [quarter, interval_low_inner inner positive] at low
  simp only [quarter, interval] at high
  push_cast at high
  constructor
  · intro tie
    rw [eq_div_iff scale.ne'] at tie
    exact low (by linarith)
  · intro tie
    rw [div_eq_iff scale.ne'] at tie
    exact high (by linarith)

/-- Below a power of two the units are half as large, and a number of the interval is rounded up to
the power. -/
theorem Near.rounds_edge (near : b.Near q) (edge : b.isEdge)
    (less : q < b.significand * 2 ^ b.exponent) :
    Rounds (2 ^ 53) (q / 2 ^ (b.exponent - 1)) := by
  have scale := two_zpow_pos (b.exponent - 1)
  have half : (2 : ℚ) ^ b.exponent = 2 * 2 ^ (b.exponent - 1) := by
    rw [← zpow_one_add₀ (by norm_num)]
    congr 1
    ring
  have least := near.above_edge edge
  rw [edge.1, half] at least less
  push_cast at least less ⊢
  refine ⟨?_, ?_, ?_⟩
  · rw [le_div_iff₀ scale]
    push_cast
    linarith
  · rw [div_le_iff₀ scale]
    push_cast
    linarith
  · intro odd
    norm_num at odd

/-- A number of the interval lies below the power of two above the double. -/
theorem Near.lt_power (near : b.Near q) (canonical : b.Canonical) :
    q < 2 ^ (53 + b.exponent) := by
  have scale := two_zpow_pos b.exponent
  have bounded : (b.significand : ℚ) + 1 ≤ 2 ^ 53 := by
    exact_mod_cast Nat.succ_le_of_lt canonical.bounded
  have most := near.below
  rw [two_zpow_add]
  norm_num at bounded ⊢
  nlinarith

/-- The exponent under which a number of the interval is rounded: that of the double, or one less if
the number lies below a power of two. -/
theorem Near.targetExponent (near : b.Near q) (canonical : b.Canonical)
    (positive : 0 < b.significand) {total : ℤ} (low : (2 : ℚ) ^ (total - 1) ≤ q)
    (high : q < 2 ^ total) :
    Format.binary64.targetExponent total = b.exponent ∨
      b.isEdge ∧ q < b.significand * 2 ^ b.exponent ∧
        Format.binary64.targetExponent total = b.exponent - 1 := by
  have scale := two_zpow_pos b.exponent
  have least := canonical.least
  have upper : total - 1 < 53 + b.exponent :=
    (two_zpow_lt_iff _ _).1 (lt_of_le_of_lt low (near.lt_power canonical))
  rw [targetExponent_eq]
  by_cases subnormal : b.exponent = -1074
  · left
    omega
  · have normal : (2 : ℚ) ^ 52 ≤ b.significand := by
      exact_mod_cast canonical.normal.resolve_right subnormal
    by_cases less : q < b.significand * 2 ^ b.exponent ∧ b.isEdge
    · obtain ⟨less, edge⟩ := less
      right
      have below : total - 1 < 52 + b.exponent := by
        rw [← two_zpow_lt_iff]
        refine lt_of_le_of_lt low (lt_of_lt_of_eq less ?_)
        rw [edge.1, two_zpow_add]
        norm_num
      have above : 51 + b.exponent < total := by
        rw [← two_zpow_lt_iff]
        refine lt_of_le_of_lt ?_ (lt_of_le_of_lt (near.above_edge edge) high)
        rw [edge.1, two_zpow_add]
        norm_num
        linarith
      exact ⟨edge, less, by omega⟩
    · left
      have above : 52 + b.exponent < total := by
        rw [← two_zpow_lt_iff]
        refine lt_of_le_of_lt ?_ high
        rw [two_zpow_add]
        by_cases edge : b.isEdge
        · have more := not_lt.1 fun less' => less ⟨less', edge⟩
          rw [edge.1] at more
          norm_num at more ⊢
          exact more
        · have larger : 2 ^ 52 + 1 ≤ b.significand := by
            have differs : b.significand ≠ 2 ^ 52 := fun same => edge ⟨same, subnormal⟩
            have least := canonical.normal.resolve_right subnormal
            omega
          have larger' : (2 : ℚ) ^ (52 : ℕ) + 1 ≤ b.significand := by exact_mod_cast larger
          refine le_trans (mul_le_mul_of_nonneg_right ?_ scale.le) (near.above positive)
          have power : (2 : ℚ) ^ (52 : ℤ) = 2 ^ (52 : ℕ) := by norm_num
          linarith
      omega

theorem Canonical.isRounded (canonical : b.Canonical) : IsRounded b.significand b.exponent :=
  ⟨canonical.bounded, canonical.least, canonical.normal⟩

theorem roundWithAccuracy_of_rounds {sign : Sign} {mantissa m : Nat} {exponent target : ℤ}
    {accuracy : Accuracy} {x : ℚ}
    (selected : Format.binary64.targetExponent (totalExponent mantissa exponent) = target)
    (fine : exponent ≤ target) (holds : Holds (.ofMantissaAndAccuracy mantissa accuracy) x)
    (rounds : Rounds m (x * 2 ^ exponent / 2 ^ target)) :
    roundWithAccuracy Format.binary64 sign mantissa exponent accuracy =
      let shifted := shiftToTargetExponent Format.binary64 m target .exact
      if h : shifted.1.mantissa = 0 then .zero sign
      else .finite sign shifted.1.mantissa shifted.2 (Nat.pos_of_ne_zero h) := by
  have amount : (((target - exponent).toNat : ℕ) : ℤ) = target - exponent :=
    Int.toNat_of_nonneg (by omega)
  have scaled : x / 2 ^ (target - exponent).toNat = x * 2 ^ exponent / 2 ^ target := by
    have exponents : (2 : ℚ) ^ target = 2 ^ (target - exponent).toNat * 2 ^ exponent := by
      rw [← zpow_natCast, amount, ← two_zpow_add]
      congr 1
      ring
    rw [exponents, mul_div_mul_right _ _ (two_zpow_pos exponent).ne']
  have rounded := (holds.shiftRight (target - exponent).toNat).roundedMantissa (scaled ▸ rounds)
  have reached : exponent + (((target - exponent).toNat : ℕ) : ℤ) = target := by omega
  simp only [roundWithAccuracy, shiftToTargetExponent, selected, shiftToExponent, rounded, reached]
  rfl

/-- A significand that was rounded up to a power of two is shifted once more. -/
theorem shift_edge {e : ℤ} (inner : -1074 < e) :
    shiftToTargetExponent Format.binary64 (2 ^ 53) (e - 1) .exact =
      (⟨2 ^ 52, false, false⟩, e) := by
  have target : Format.binary64.targetExponent (totalExponent (2 ^ 53) (e - 1)) = e := by
    rw [targetExponent_eq, totalExponent, Nat.log2_two_pow]
    omega
  have once : (e - (e - 1)).toNat = 1 := by omega
  simp only [shiftToTargetExponent, target, shiftToExponent, once]
  exact Prod.ext rfl (by simp)

/-- The least doubles are rounded to even from no digit at all. -/
theorem Near.targetExponent_none {x : ℚ} {exponent : ℤ} (near : b.Near (x * 2 ^ exponent))
    (canonical : b.Canonical) (positive : 0 < b.significand) (tiny : exponent ≤ -1074)
    (high : x < 1) : exponent = b.exponent ∧
      Format.binary64.targetExponent (totalExponent 0 exponent) = b.exponent := by
  have scale := two_zpow_pos b.exponent
  have one : (1 : ℚ) ≤ b.significand := by exact_mod_cast positive
  have least := near.above positive
  have half : (2 : ℚ) ^ (b.exponent - 1) < 2 ^ exponent := by
    have bound : x * 2 ^ exponent < 1 * 2 ^ exponent :=
      mul_lt_mul_of_pos_right high (two_zpow_pos exponent)
    have halved : (2 : ℚ) ^ (b.exponent - 1) = 1 / 2 * 2 ^ b.exponent := by
      rw [sub_eq_add_neg, two_zpow_add]
      norm_num
      ring
    have more := mul_le_mul_of_nonneg_right (by linarith : (1 / 2 : ℚ) ≤ b.significand - 1 / 2)
      scale.le
    linarith
  have close := (two_zpow_lt_iff _ _).1 half
  have floor := canonical.least
  refine ⟨by omega, ?_⟩
  rw [targetExponent_eq, totalExponent, Nat.log2_zero]
  omega

/-- A number of the interval is rounded to the double, from a mantissa of enough digits. -/
theorem Near.roundWithAccuracy_eq (sign : Sign) {mantissa : Nat} {exponent : ℤ}
    {accuracy : Accuracy} {x : ℚ} (near : b.Near (x * 2 ^ exponent)) (canonical : b.Canonical)
    (positive : 0 < b.significand) (precise : 2 ^ 52 ≤ mantissa ∨ exponent ≤ -1074)
    (holds : Holds (.ofMantissaAndAccuracy mantissa accuracy) x) :
    roundWithAccuracy Format.binary64 sign mantissa exponent accuracy =
      .finite sign b.significand b.exponent positive := by
  have given : (ExtendedMantissa.ofMantissaAndAccuracy mantissa accuracy).mantissa = mantissa := by
    cases accuracy with
    | exact => rfl
    | inexact relation => cases relation <;> rfl
  obtain ⟨low, high⟩ := holds.floor
  rw [given] at low high
  have settled (selected : Format.binary64.targetExponent (totalExponent mantissa exponent) =
      b.exponent) (fine : exponent ≤ b.exponent) :
      roundWithAccuracy Format.binary64 sign mantissa exponent accuracy =
        .finite sign b.significand b.exponent positive := by
    rw [roundWithAccuracy_of_rounds selected fine holds (near.rounds positive)]
    simp only [canonical.isRounded.shift_self positive, positive.ne', ↓reduceDIte]
  by_cases none : mantissa = 0
  · subst none
    obtain ⟨same, selected⟩ := near.targetExponent_none canonical positive
      (precise.resolve_left (by norm_num)) (by simpa using high)
    exact settled selected same.le
  · obtain ⟨lower, upper⟩ := totalExponent_bounds none exponent low high
    have fine : exponent ≤ Format.binary64.targetExponent (totalExponent mantissa exponent) := by
      rw [targetExponent_eq, totalExponent]
      rcases precise with long | tiny
      · have bits := (Nat.le_log2 none).2 long
        omega
      · omega
    rcases near.targetExponent canonical positive lower upper with
      selected | ⟨edge, less, selected⟩
    · rw [selected] at fine
      exact settled selected fine
    · have inner : -1074 < b.exponent := lt_of_le_of_ne canonical.least edge.2.symm
      rw [selected] at fine
      rw [roundWithAccuracy_of_rounds selected fine holds (near.rounds_edge edge less)]
      simp only [shift_edge inner, edge.1]
      rfl

end Binary

/-! ### Products and quotients -/

/-- The number that an unpacked mantissa and exponent stand for. -/
def scaledBy (mantissa : Nat) (exponent : ℤ) : ℚ := mantissa * 2 ^ exponent

namespace Binary

variable {b : Binary}

theorem Near.mul_eq {m n : Nat} {d e : ℤ} (s t : Sign) (hm : 0 < m) (hn : 0 < n)
    (near : b.Near (scaledBy m d * scaledBy n e)) (canonical : b.Canonical)
    (positive : 0 < b.significand) (long : 2 ^ 52 ≤ m * n) :
    mul Format.binary64 (.finite s m d hm) (.finite t n e hn) =
      .finite (s * t) b.significand b.exponent positive := by
  have product : scaledBy m d * scaledBy n e = ((m * n : ℕ) : ℚ) * 2 ^ (d + e) := by
    rw [scaledBy, scaledBy, two_zpow_add]
    push_cast
    ring
  rw [product] at near
  exact near.roundWithAccuracy_eq _ canonical positive (.inl long) (holds_exact (m * n))

/-- A quotient is taken to as many digits as a double has, unless it is among the least ones. -/
theorem divCore_precise {m n : Nat} {d e : ℤ} (hm : 0 < m) (hn : 0 < n) :
    2 ^ 52 ≤ (divCore Format.binary64 m d n e).1 ∨
      (divCore Format.binary64 m d n e).2.1 ≤ -1074 := by
  simp only [divCore, targetExponent_eq, totalExponent]
  by_cases tiny : (m.log2 : ℤ) + 1 + d - (n.log2 + 1 + e) - 53 ≤ -1074
  · right
    omega
  · left
    generalize shifted : (d - e - min (d - e) (max ((m.log2 : ℤ) + 1 + d - (n.log2 + 1 + e) - 53)
      (-1074))).toNat = shift
    have enough : n.log2 + 53 ≤ m.log2 + shift := by omega
    have dividend : 2 ^ (n.log2 + 53) ≤ m <<< shift := by
      rw [Nat.shiftLeft_eq]
      calc 2 ^ (n.log2 + 53) ≤ 2 ^ (m.log2 + shift) := Nat.pow_le_pow_right (by norm_num) enough
        _ = 2 ^ m.log2 * 2 ^ shift := Nat.pow_add ..
        _ ≤ m * 2 ^ shift := Nat.mul_le_mul_right _ (Nat.log2_self_le hm.ne')
    rw [Nat.le_div_iff_mul_le hn]
    calc 2 ^ 52 * n ≤ 2 ^ 52 * 2 ^ (n.log2 + 1) :=
          Nat.mul_le_mul_left _ (Nat.le_of_lt Nat.lt_log2_self)
      _ = 2 ^ (n.log2 + 53) := by rw [← Nat.pow_add]; congr 1; omega
      _ ≤ m <<< shift := dividend

theorem Near.div_eq {m n : Nat} {d e : ℤ} (s t : Sign) (hm : 0 < m) (hn : 0 < n)
    (near : b.Near (scaledBy m d / scaledBy n e)) (canonical : b.Canonical)
    (positive : 0 < b.significand) :
    div Format.binary64 (.finite s m d hm) (.finite t n e hn) =
      .finite (s / t) b.significand b.exponent positive := by
  have precise := divCore_precise (d := d) (e := e) hm hn
  simp only [div, divCore] at precise ⊢
  generalize chosen : min (d - e)
    (Format.binary64.targetExponent (totalExponent m d - totalExponent n e)) = target at precise ⊢
  have below : target ≤ d - e := by
    rw [← chosen]
    exact min_le_left _ _
  have quotient : scaledBy m d / scaledBy n e =
      ((m <<< (d - e - target).toNat : ℕ) : ℚ) / n * 2 ^ target := by
    have amount : (((d - e - target).toNat : ℕ) : ℤ) = d - e - target :=
      Int.toNat_of_nonneg (by omega)
    have shifted : (2 : ℚ) ^ (d - e - target).toNat * 2 ^ target * 2 ^ e = 2 ^ d := by
      rw [← zpow_natCast, amount, ← two_zpow_add, ← two_zpow_add]
      congr 1
      ring
    have scale := two_zpow_pos e
    have hn' : (n : ℚ) ≠ 0 := by exact_mod_cast hn.ne'
    rw [scaledBy, scaledBy, Nat.shiftLeft_eq, ← shifted]
    push_cast
    field_simp
  rw [quotient] at near
  exact near.roundWithAccuracy_eq _ canonical positive precise (holds_of_quotient hn)

end Binary

end Formula.Decimal
