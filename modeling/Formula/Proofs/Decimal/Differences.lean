import Formula.Proofs.Decimal.Signs

/-!
Differences of doubles. A positive number that is no less than the least double is never rounded to
zero, but to a double near it, so the difference of two finite doubles is zero only if they are equal,
and positive, though maybe infinite, if the first is the greater.
-/

set_option autoImplicit false

namespace Formula.Decimal

open Float.Model (UnpackedFloat Format totalExponent)
open Float.Model.UnpackedFloat

/-! ### Rounding up to the exponent -/

theorem exists_rounds {x : ℚ} (positive : 0 ≤ x) : ∃ m, Rounds m x := by
  have low := Nat.floor_le positive
  have high := Nat.lt_floor_add_one x
  generalize ⌊x⌋₊ = n at low high
  rcases lt_trichotomy x (n + 1 / 2) with less | tie | more
  · exact ⟨n, by linarith, less.le, fun _ => ⟨by linarith, less.ne⟩⟩
  · rcases Nat.mod_two_eq_zero_or_one n with even | odd
    · exact ⟨n, by linarith, tie.le, fun odd => by omega⟩
    · refine ⟨n + 1, ?_, ?_, fun odd' => by omega⟩
      · push_cast
        linarith
      · push_cast
        linarith
  · refine ⟨n + 1, ?_, ?_, fun _ => ⟨?_, ?_⟩⟩
    · push_cast
      linarith
    · push_cast
      linarith
    · push_cast
      linarith
    · push_cast
      linarith

theorem log2_shiftLeft {m : Nat} (positive : 0 < m) (k : Nat) : (m <<< k).log2 = m.log2 + k := by
  have shifted : 0 < m <<< k := by
    rw [Nat.shiftLeft_eq]
    positivity
  rw [Nat.log2_eq_iff shifted.ne', Nat.shiftLeft_eq]
  have low := Nat.log2_self_le positive.ne'
  have high : m < 2 ^ (m.log2 + 1) := Nat.lt_log2_self
  constructor
  · rw [pow_add]
    exact Nat.mul_le_mul_right _ low
  · rw [show m.log2 + k + 1 = m.log2 + 1 + k by omega, pow_add]
    exact Nat.mul_lt_mul_of_pos_right high (by positivity)

/-- In units of the last place a positive number has as many digits as a double, unless it is among the
least ones, and it is no less than one. -/
theorem units_bounds {m : Nat} {e target : ℤ} (positive : 0 < m) (least : -1074 ≤ e)
    (fine : e ≤ target)
    (selected : Format.binary64.targetExponent (totalExponent m e) = target) :
    1 ≤ (m : ℚ) * 2 ^ e / 2 ^ target ∧ (m : ℚ) * 2 ^ e / 2 ^ target < 2 ^ 53 ∧
      (target = -1074 ∨ 2 ^ 52 ≤ (m : ℚ) * 2 ^ e / 2 ^ target) := by
  obtain ⟨low, high⟩ := totalExponent_bounds positive.ne' e le_rfl (lt_add_one (m : ℚ))
  have scale := two_zpow_pos target
  have mono {c d : ℤ} (less : c ≤ d) : (2 : ℚ) ^ c ≤ 2 ^ d :=
    zpow_le_zpow_right₀ (by norm_num) less
  have power (n : ℕ) : (2 : ℚ) ^ n * 2 ^ target = 2 ^ (n + target) := by
    rw [two_zpow_add, zpow_natCast]
  rw [targetExponent_eq] at selected
  rw [le_div_iff₀ scale, div_lt_iff₀ scale, le_div_iff₀ scale, power, power, one_mul]
  refine ⟨?_, lt_of_lt_of_le high (mono (by push_cast; omega)), ?_⟩
  · by_cases subnormal : target = -1074
    · have same : target = e := by omega
      have one : (1 : ℚ) ≤ m := by exact_mod_cast positive
      rw [same]
      exact le_mul_of_one_le_left (two_zpow_pos e).le one
    · exact le_trans (mono (by omega)) low
  · by_cases subnormal : target = -1074
    · exact .inl subnormal
    · exact .inr (le_trans (mono (by push_cast; omega)) low)

/-- A number lies in the interval of the significand that it is rounded to in units of the last
place. -/
theorem near_of_rounds {n : Nat} {target : ℤ} {x : ℚ} (positive : 0 < n)
    (rounds : Rounds n (x / 2 ^ target)) (low : target = -1074 ∨ 2 ^ 52 ≤ x / 2 ^ target) :
    Binary.Near ⟨false, n, target⟩ x := by
  have scale := two_zpow_pos target
  have above := (le_div_iff₀ scale).1 rounds.low
  have below := (div_le_iff₀ scale).1 rounds.high
  have high : ((Binary.interval ⟨false, n, target⟩).high : ℚ) = 4 * n + 2 := by
    simp only [Binary.interval]
    push_cast
    rfl
  by_cases edge : Binary.isEdge ⟨false, n, target⟩
  · -- A number at the edge is no less than the power of two, so the nearer neighbour is far.
    have least := (le_div_iff₀ scale).1 (low.resolve_left edge.2)
    have same : n = 2 ^ 52 := edge.1
    subst same
    push_cast at below
    refine ⟨?_, ?_, fun odd => ?_⟩
    · rw [Binary.interval_low_edge edge, Binary.quarter]
      push_cast
      linarith
    · rw [high, Binary.quarter]
      push_cast
      linarith
    · norm_num at odd
  · have low := Binary.interval_low_inner edge positive
    dsimp only at low
    refine ⟨?_, ?_, fun odd => ?_⟩
    · rw [low, Binary.quarter]
      linarith
    · rw [high, Binary.quarter]
      linarith
    · obtain ⟨lower, upper⟩ := rounds.odd odd
      rw [low, high, Binary.quarter]
      constructor
      · intro tie
        exact lower ((eq_div_iff scale.ne').2 (by linarith))
      · intro tie
        exact upper ((div_eq_iff scale.ne').2 (by linarith))

/-- A number that is rounded up to a power of two lies in the interval of this power. -/
theorem near_of_rounds_edge {target : ℤ} {x : ℚ} (least : -1074 ≤ target)
    (rounds : Rounds (2 ^ 53) (x / 2 ^ target)) : Binary.Near ⟨false, 2 ^ 52, target + 1⟩ x := by
  have scale := two_zpow_pos target
  have above := (le_div_iff₀ scale).1 rounds.low
  have below := (div_le_iff₀ scale).1 rounds.high
  have double : (2 : ℚ) ^ (target + 1) = 2 * 2 ^ target := by
    rw [two_zpow_add, zpow_one, mul_comm]
  have edge : Binary.isEdge ⟨false, 2 ^ 52, target + 1⟩ := ⟨rfl, by dsimp only; omega⟩
  push_cast at above below
  refine ⟨?_, ?_, fun odd => ?_⟩
  · rw [Binary.interval_low_edge edge, Binary.quarter, double]
    push_cast
    linarith
  · simp only [Binary.interval, Binary.quarter, double]
    push_cast
    linarith
  · norm_num at odd

/-- Rounding a positive number gives no zero, but a double near the number. -/
theorem exists_roundWithAccuracy (s : Sign) {m : Nat} {e : ℤ} (positive : 0 < m)
    (least : -1074 ≤ e) (fine : e ≤ Format.binary64.targetExponent (totalExponent m e)) :
    ∃ n d, ∃ above : 0 < n,
      roundWithAccuracy Format.binary64 s m e .exact = .finite s n d above ∧ IsRounded n d ∧
        Binary.Near ⟨false, n, d⟩ (m * 2 ^ e) := by
  generalize selected : Format.binary64.targetExponent (totalExponent m e) = target at fine
  obtain ⟨one, high, low⟩ := units_bounds positive least fine selected
  obtain ⟨n, rounds⟩ := exists_rounds (zero_le_one.trans one)
  have some : 0 < n := by
    have close : (1 : ℚ) ≤ n + 1 / 2 := le_trans one rounds.high
    by_contra none
    rw [Nat.eq_zero_of_not_pos none] at close
    norm_num at close
  have most : n ≤ 2 ^ 53 := by
    have close : (n : ℚ) < 2 ^ 53 + 1 := by linarith [rounds.low]
    exact Nat.lt_succ_iff.1 (by exact_mod_cast close)
  have normal : 2 ^ 52 ≤ n ∨ target = -1074 := by
    refine low.symm.imp_left fun low => ?_
    have close : (2 : ℚ) ^ 52 < n + 1 := by linarith [rounds.high]
    exact Nat.lt_succ_iff.1 (by exact_mod_cast close)
  have least' : -1074 ≤ target := le_trans least fine
  rw [Binary.roundWithAccuracy_of_rounds selected fine (holds_exact m) rounds]
  by_cases edge : n = 2 ^ 53
  · -- The significand is rounded up to the next power of two.
    have shifted := Binary.shift_edge (show -1074 < target + 1 by omega)
    rw [Int.add_sub_cancel] at shifted
    rw [edge]
    simp only [shifted]
    exact ⟨2 ^ 52, target + 1, by norm_num, rfl, ⟨by norm_num, by omega, .inl le_rfl⟩,
      near_of_rounds_edge least' (edge ▸ rounds)⟩
  · have rounded : IsRounded n target := ⟨lt_of_le_of_ne most edge, least', normal⟩
    simp only [rounded.shift_self some, some.ne', ↓reduceDIte]
    exact ⟨n, target, some, rfl, rounded, near_of_rounds some rounds low⟩

theorem exists_round (s : Sign) {m : Nat} {e : ℤ} (positive : 0 < m) (least : -1074 ≤ e) :
    ∃ n d, ∃ above : 0 < n, round Format.binary64 s m e = .finite s n d above ∧ IsRounded n d ∧
      Binary.Near ⟨false, n, d⟩ (m * 2 ^ e) := by
  unfold UnpackedFloat.round decreaseExponent
  dsimp only
  generalize selected : Format.binary64.targetExponent (totalExponent m e) = target
  have total : totalExponent (m <<< (e - target).toNat) (e - (e - target).toNat) =
      totalExponent m e := by
    rw [totalExponent, totalExponent, log2_shiftLeft positive]
    push_cast
    omega
  have same : ((m <<< (e - target).toNat : ℕ) : ℚ) * 2 ^ (e - (e - target).toNat) = m * 2 ^ e := by
    have exponents := two_zpow_add ((e - target).toNat : ℤ) (e - (e - target).toNat)
    rw [add_sub_cancel, zpow_natCast] at exponents
    rw [exponents, Nat.shiftLeft_eq]
    push_cast
    ring
  rw [← same]
  apply exists_roundWithAccuracy
  · rw [Nat.shiftLeft_eq]
    positivity
  · rw [targetExponent_eq] at selected
    omega
  · rw [total, selected]
    omega

/-! ### Signs that stay -/

/-- A rounded number other than zero with a sign, maybe infinite. -/
inductive IsSigned (s : Sign) : UnpackedFloat → Prop
  | finite {m : Nat} {e : ℤ} (positive : 0 < m) (rounded : IsRounded m e) :
      IsSigned s (.finite s m e positive)
  | infinity : IsSigned s (.infinity s)

theorem IsSigned.unpack_pack {s : Sign} {u : UnpackedFloat} (signed : IsSigned s u) :
    IsSigned s (Float.ofModel (.pack u)).toModel.unpack := by
  have infinite : IsSigned s (Float.ofModel (.pack (.infinity s))).toModel.unpack := by
    cases s <;> exact .infinity
  cases signed with
  | infinity => exact infinite
  | @finite m e positive rounded =>
      have sign : signOf (s == .negative) = s := by cases s <;> rfl
      by_cases great : e ≤ 971
      · have canonical : Binary.Canonical ⟨s == .negative, m, e⟩ :=
          ⟨rounded.bounded, rounded.least, great, rounded.normal⟩
        have decoded := decode_toFloat canonical
        rw [Binary.toFloat, Binary.unpacked_of_pos positive, sign] at decoded
        rw [unpack_eq, decoded, Decoded.unpacked, Binary.unpacked_of_pos positive, sign]
        exact .finite positive rounded
      · have overflows : pack Format.binary64 (.finite s m e positive) =
            packedInfinity Format.binary64 s := by
          have biased : 2 ^ 11 ≤ (e + 1023 + 52).toNat + 1 := by omega
          unfold pack
          exact if_pos biased
        have same : Float.Model.pack (.finite s m e positive) = Float.Model.pack (.infinity s) := by
          simp only [Float.Model.pack, overflows]
          rfl
        rw [same]
        exact infinite

theorem IsSigned.neg {s : Sign} {u : UnpackedFloat} (signed : IsSigned s u) :
    IsSigned (-s) u.neg := by
  cases signed with
  | finite positive rounded => exact .finite positive rounded
  | infinity => exact .infinity

/-! ### Order -/

theorem lt_iff_compare {x y : Float} :
    x < y ↔ x.toModel.unpack.compare y.toModel.unpack = some .lt := by
  change decide (x.toModel < y.toModel) = true ↔ _
  rw [decide_eq_true_iff]
  change (x.toModel.unpack.compare y.toModel.unpack == some .lt) = true ↔ _
  rw [beq_iff_eq]

theorem le_iff_compare {x y : Float} :
    x ≤ y ↔ (x.toModel.unpack.compare y.toModel.unpack).any (·.isLE) = true := by
  change decide (x.toModel ≤ y.toModel) = true ↔ _
  rw [decide_eq_true_iff]
  exact Iff.rfl

theorem compare_then_swap (d e : ℤ) (m n : Nat) :
    (compare d e).then (compare m n) = ((compare e d).then (compare n m)).swap := by
  have exponents : compare d e = (compare e d).swap := Std.OrientedCmp.eq_swap
  have mantissas : compare m n = (compare n m).swap := Std.OrientedCmp.eq_swap
  rw [Ordering.swap_then, exponents, mantissas]

theorem compare_swap (u v : UnpackedFloat) : u.compare v = (v.compare u).map .swap := by
  rcases u with (_ | _) | _ | (_ | _) | ⟨_ | _, m, d, _⟩ <;>
    rcases v with (_ | _) | _ | (_ | _) | ⟨_ | _, n, e, _⟩ <;>
    first
    | rfl
    | exact congrArg some (compare_then_swap d e m n)
    | exact congrArg (fun order => some order.swap) (compare_then_swap d e m n)

theorem lt_zero_of_isSigned {x : Float} (signed : IsSigned .negative x.toModel.unpack) :
    x < 0.0 := by
  have zero : (0.0 : Float).toModel.unpack = .zero .positive := by
    rw [unpack_eq, decode_zero]
    rfl
  rw [lt_iff_compare, zero]
  generalize x.toModel.unpack = u at signed
  cases signed with
  | finite positive rounded => rfl
  | infinity => rfl

theorem not_lt_of_le {x y : Float} (above : y ≤ x) : ¬ x < y := by
  rw [le_iff_compare] at above
  rw [lt_iff_compare, compare_swap]
  cases order : y.toModel.unpack.compare x.toModel.unpack with
  | none => simp
  | some o =>
      rw [order] at above
      cases o with
      | gt => cases above
      | lt | eq => simp

/-! ### Differences -/

/-- The lesser of two rounded positive numbers has the lesser mantissa under a common exponent. -/
theorem shiftLeft_lt {m n : Nat} {d e : ℤ} (first : IsRounded m d) (second : IsRounded n e)
    (less : (compare d e).then (compare m n) = .lt) :
    m <<< (d - min d e).toNat < n <<< (e - min d e).toNat := by
  rcases lt_trichotomy d e with below | rfl | above
  · have least := first.least
    have normal : 2 ^ 52 ≤ n := second.normal.resolve_right (by omega)
    have same : (d - min d e).toNat = 0 := by omega
    obtain ⟨k, shift⟩ : ∃ k, (e - min d e).toNat = k + 1 := ⟨(e - min d e).toNat - 1, by omega⟩
    rw [same, shift, Nat.shiftLeft_eq, Nat.shiftLeft_eq, pow_zero, mul_one]
    have bounded := first.bounded
    calc m < 2 ^ 53 := first.bounded
      _ = 2 ^ 52 * 2 := by norm_num
      _ ≤ n * 2 ^ (k + 1) := Nat.mul_le_mul normal (Nat.le_self_pow (Nat.succ_ne_zero k) 2)
  · have mantissas : m < n := by
      rw [Int.compare_eq_eq.2 rfl] at less
      exact Nat.compare_eq_lt.1 less
    simpa using mantissas
  · have order : compare d e = .gt := Int.compare_eq_gt.2 above
    rw [order] at less
    cases less

/-- An unpacked double with a sign that is rounded from a positive number. -/
def IsNearest (negative : Bool) (x : ℚ) (u : UnpackedFloat) : Prop :=
  ∃ n e, ∃ above : 0 < n, u = .finite (signOf negative) n e above ∧ IsRounded n e ∧
    Binary.Near ⟨false, n, e⟩ x

/-- A mantissa other than zero is rounded with its sign. -/
theorem isNearest_normalize {m e : ℤ} (nonzero : m ≠ 0) (least : -1074 ≤ e) (s : Sign) :
    IsNearest (m < 0) |(m : ℚ) * 2 ^ e| (UnpackedFloat.normalize Format.binary64 m e s) := by
  have magnitude : |(m : ℚ) * 2 ^ e| = (m.natAbs : ℚ) * 2 ^ e := by
    rw [abs_mul, abs_of_pos (two_zpow_pos e), Nat.cast_natAbs, Int.cast_abs]
  rw [magnitude]
  unfold UnpackedFloat.normalize
  rcases lt_or_gt_of_ne nonzero with negative | positive
  · have size : (-m).toNat = m.natAbs := by omega
    rw [Int.compare_eq_lt.2 negative, decide_eq_true negative]
    dsimp only
    rw [size]
    exact exists_round .negative (Int.natAbs_pos.2 nonzero) least
  · have size : m.toNat = m.natAbs := by omega
    rw [Int.compare_eq_gt.2 positive, decide_eq_false positive.not_gt]
    dsimp only
    rw [size]
    exact exists_round .positive (Int.natAbs_pos.2 nonzero) least

/-- A positive difference of mantissas is rounded to a positive number. -/
theorem isSigned_normalize {m e : ℤ} (positive : 0 < m) (least : -1074 ≤ e) :
    IsSigned .positive (UnpackedFloat.normalize Format.binary64 m e .positive) := by
  obtain ⟨n, d, above, rounding, rounded, -⟩ := isNearest_normalize positive.ne' least .positive
  rw [decide_eq_false positive.not_gt] at rounding
  rw [rounding]
  exact .finite above rounded

theorem difference_pos {s t : Sign} {m n : Nat} {d e : ℤ} (above : 0 < m) (above' : 0 < n)
    (rounded : IsRounded m d) (rounded' : IsRounded n e)
    (less : (UnpackedFloat.finite s m d above).compare (.finite t n e above') = some .lt) :
    0 < t.apply (n <<< (e - min e d).toNat : Nat) - s.apply (m <<< (d - min e d).toNat : Nat) := by
  have positive (k l : Nat) (some : 0 < k) : 0 < k <<< l := by
    rw [Nat.shiftLeft_eq]
    positivity
  have some := positive m (d - min e d).toNat above
  have some' := positive n (e - min e d).toNat above'
  cases s with
  | negative =>
      cases t with
      | negative =>
          have order := Option.some.inj less
          rw [← compare_then_swap] at order
          have shifted := shiftLeft_lt rounded' rounded order
          simp only [Sign.apply]
          omega
      | positive =>
          simp only [Sign.apply]
          omega
  | positive =>
      cases t with
      | negative => cases less
      | positive =>
          have shifted := shiftLeft_lt rounded rounded' (Option.some.inj less)
          rw [min_comm] at shifted
          simp only [Sign.apply]
          omega

/-- The difference of the greater and the lesser of two finite doubles is positive. -/
theorem isSigned_sub {x y : Float} (finite : x.isFinite = true) (finite' : y.isFinite = true)
    (less : x < y) :
    IsSigned .positive (sub Format.binary64 y.toModel.unpack x.toModel.unpack) := by
  rw [lt_iff_compare] at less
  rcases unpack_of_isFinite finite with ⟨s, first⟩ | ⟨s, b, above, canonical, first⟩
  · rcases unpack_of_isFinite finite' with ⟨t, second⟩ | ⟨t, c, above', canonical', second⟩
    · rw [first, second] at less
      cases less
    · rw [first, second] at less ⊢
      cases t with
      | negative => cases less
      | positive => exact .finite above' canonical'.isRounded
  · rcases unpack_of_isFinite finite' with ⟨t, second⟩ | ⟨t, c, above', canonical', second⟩
    · rw [first, second] at less ⊢
      cases s with
      | positive => cases less
      | negative => exact .finite above canonical.isRounded
    · rw [first, second] at less ⊢
      have least : -1074 ≤ min c.exponent b.exponent := le_min canonical'.least canonical.least
      have positive := difference_pos above above' canonical.isRounded canonical'.isRounded less
      exact isSigned_normalize positive least

/-- Gradual underflow: less the lesser of two finite doubles, the greater is positive, and with the sign
turned it is less than zero. -/
theorem neg_sub_lt_zero {x y : Float} (finite : x.isFinite = true) (finite' : y.isFinite = true)
    (less : x < y) : -(y - x) < 0.0 := by
  have difference : IsSigned .positive (y - x).toModel.unpack :=
    (isSigned_sub finite finite' less).unpack_pack
  exact lt_zero_of_isSigned difference.neg.unpack_pack

theorem sub_self_of_isFinite {x : Float} (finite : x.isFinite = true) : x - x = 0.0 := by
  have difference : x - x = .ofModel (.pack (sub Format.binary64 x.toModel.unpack x.toModel.unpack)) :=
    rfl
  have zero : Float.ofModel (.pack (.zero .positive)) = 0.0 := by decide
  rw [difference, ← zero]
  congr 2
  rcases unpack_of_isFinite finite with ⟨s, unpacked⟩ | ⟨s, b, above, -, unpacked⟩
  · rw [unpacked]
    cases s <;> rfl
  · rw [unpacked]
    simp only [sub, Int.sub_self]
    rfl

end Formula.Decimal
