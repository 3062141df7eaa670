import Mathlib.Tactic.Ring
import Formula.Proofs.Expr.ExactValue
import Formula.Proofs.Simplify.Laws

/-!
The laws in exact arithmetic. Where the left side of a law has an exact value, the right side has the
same one, and so does the end of a chain of links, as long as the folds in it are exact.
-/

set_option autoImplicit false

namespace Formula.Expr

open Interpretation

section

variable {i : Interpretation} {q : ℚ}

theorem value_bin_of_left {op : BinaryOp} {left right : Expr} {a : ℚ} (known : i.value left = some a)
    (value : i.value (.bin op left right) = some q) :
    ∃ b, i.value right = some b ∧ op.exact a b = some q := by
  obtain ⟨c, first, b, second, found⟩ := value_bin.1 value
  cases known.symm.trans first
  exact ⟨b, second, found⟩

theorem value_bin_of_right {op : BinaryOp} {left right : Expr} {b : ℚ}
    (known : i.value right = some b) (value : i.value (.bin op left right) = some q) :
    ∃ a, i.value left = some a ∧ op.exact a b = some q := by
  obtain ⟨a, first, c, second, found⟩ := value_bin.1 value
  cases known.symm.trans second
  exact ⟨a, first, found⟩

/-! ### Powers of one variable -/

/-- A power of a variable has an integer for its exponent, and one above zero if the variable is
zero. -/
theorem PowerOf.value {x : String} {e a : Expr} (power : PowerOf x e a) (value : i.value e = some q) :
    ∃ n : ℤ, i.value a = some (n : ℚ) ∧ (i.ofVariable x = 0 → 0 < n) ∧ i.ofVariable x ^ n = q := by
  cases power with
  | itself =>
      cases value
      exact ⟨1, by rw [value_one, Int.cast_one], fun _ => one_pos, zpow_one _⟩
  | power =>
      obtain ⟨b, base, c, exponent, found⟩ := value_bin.1 value
      cases base
      obtain ⟨n, rfl, above, rfl⟩ := BinaryOp.exact_pow.1 found
      exact ⟨n, exponent, above, rfl⟩

theorem value_power {x : String} {a : Expr} {n : ℤ} (exponent : i.value a = some (n : ℚ))
    (above : i.ofVariable x = 0 → 0 < n) :
    i.value (.bin .pow (.var x) a) = some (i.ofVariable x ^ n) :=
  value_bin.2 ⟨_, rfl, _, exponent, BinaryOp.exact_pow.2 ⟨n, rfl, above, rfl⟩⟩

/-- Only where the variable is not zero is there a quotient by its power. -/
theorem variable_ne_zero {b : ℚ} {n : ℤ} (above : b = 0 → 0 < n) (notZero : b ^ n ≠ 0) : b ≠ 0 := by
  intro zero
  rw [zero, zero_zpow n (above zero).ne'] at notZero
  exact notZero rfl

theorem zpow_add_of_above {b : ℚ} {m n : ℤ} (first : b = 0 → 0 < m) (second : b = 0 → 0 < n) :
    b ^ (m + n) = b ^ m * b ^ n := by
  by_cases zero : b = 0
  · have positive := first zero
    have positive' := second zero
    rw [zero, zero_zpow _ (by omega), zero_zpow _ positive.ne', zero_mul]
  · exact zpow_add₀ zero m n

/-- A factor that is a power of a variable, times a quotient by the variable. -/
theorem PowerOf.value_timesQuotient {x : String} {factor a c : Expr} {f d : ℚ}
    (power : PowerOf x factor a) (factorValue : i.value factor = some f)
    (quotientValue : i.value (.bin .div c (.var x)) = some d) :
    i.value (.bin .mul c (.bin .pow (.var x) (.bin .sub a .one))) = some (f * d) := by
  obtain ⟨n, exponent, -, rfl⟩ := power.value factorValue
  obtain ⟨k, dividend, b, base, found⟩ := value_bin.1 quotientValue
  cases base
  obtain ⟨notZero, rfl⟩ := BinaryOp.exact_div.1 found
  have less : i.value (.bin .sub a .one) = some ((n - 1 : ℤ) : ℚ) := by
    refine value_bin.2 ⟨n, exponent, 1, value_one, BinaryOp.exact_sub.2 ?_⟩
    push_cast
    rfl
  refine value_bin.2 ⟨k, dividend, _, value_power less fun zero => absurd zero notZero, ?_⟩
  rw [BinaryOp.exact_mul, zpow_sub_one₀ notZero]
  ring

/-- A constant times the reciprocal of a variable. -/
theorem value_timesReciprocal {x : String} {v : Float} {c : Expr} {f d : ℚ}
    (one : c.isConstant 1.0 = true) (factorValue : i.value (.const v) = some f)
    (quotientValue : i.value (.bin .div c (.var x)) = some d) :
    i.value (.bin .div (.const v) (.var x)) = some (f * d) := by
  obtain ⟨k, dividend, b, base, found⟩ := value_bin.1 quotientValue
  cases (value_of_isOne one).symm.trans dividend
  obtain ⟨notZero, rfl⟩ := BinaryOp.exact_div.1 found
  refine value_bin.2 ⟨f, factorValue, b, base, BinaryOp.exact_div.2 ⟨notZero, ?_⟩⟩
  ring

theorem Regroups.value {op : BinaryOp} {left right e : Expr} (regroups : Regroups op left right e)
    (value : i.value (.bin op left right) = some q) : i.value e = some q := by
  obtain ⟨a, first, b, second, found⟩ := value_bin.1 value
  cases regroups with
  | timesQuotient c power =>
      rw [← BinaryOp.exact_mul.1 found]
      exact power.value_timesQuotient first second
  | quotientTimes c power =>
      rw [← BinaryOp.exact_mul.1 found, mul_comm]
      exact power.value_timesQuotient second first
  | timesReciprocal x v c one =>
      rw [← BinaryOp.exact_mul.1 found]
      exact value_timesReciprocal one first second
  | reciprocalTimes x v c one =>
      rw [← BinaryOp.exact_mul.1 found, mul_comm]
      exact value_timesReciprocal one second first
  | product power power' =>
      obtain ⟨m, exponent, above, rfl⟩ := power.value first
      obtain ⟨n, exponent', above', rfl⟩ := power'.value second
      rw [← BinaryOp.exact_mul.1 found, ← zpow_add_of_above above above']
      refine value_power (value_bin.2 ⟨m, exponent, n, exponent', ?_⟩) fun zero => ?_
      · rw [BinaryOp.exact_add, Int.cast_add]
      · have positive := above zero
        have positive' := above' zero
        omega
  | quotient power power' =>
      obtain ⟨m, exponent, -, rfl⟩ := power.value first
      obtain ⟨n, exponent', above', rfl⟩ := power'.value second
      obtain ⟨divisor, rfl⟩ := BinaryOp.exact_div.1 found
      have notZero := variable_ne_zero above' divisor
      rw [← zpow_sub₀ notZero]
      refine value_power (value_bin.2 ⟨m, exponent, n, exponent', ?_⟩) fun zero => absurd zero notZero
      rw [BinaryOp.exact_sub, Int.cast_sub]

theorem Settles.value {op : BinaryOp} {left right e : Expr} (settles : Settles op left right e)
    (value : i.value (.bin op left right) = some q) : i.value e = some q := by
  cases settles with
  | zeroAdd zero a =>
      obtain ⟨b, right, found⟩ := value_bin_of_left (value_of_isZero zero) value
      rw [← BinaryOp.exact_add.1 found, zero_add]
      exact right
  | addZero a zero =>
      obtain ⟨b, left, found⟩ := value_bin_of_right (value_of_isZero zero) value
      rw [← BinaryOp.exact_add.1 found, add_zero]
      exact left
  | subZero a zero =>
      obtain ⟨b, left, found⟩ := value_bin_of_right (value_of_isZero zero) value
      rw [← BinaryOp.exact_sub.1 found, sub_zero]
      exact left
  | zeroMul zero a =>
      obtain ⟨b, right, found⟩ := value_bin_of_left (value_of_isZero zero) value
      rw [← BinaryOp.exact_mul.1 found, zero_mul]
      exact value_zero
  | mulZero a zero =>
      obtain ⟨b, left, found⟩ := value_bin_of_right (value_of_isZero zero) value
      rw [← BinaryOp.exact_mul.1 found, mul_zero]
      exact value_zero
  | oneMul one a =>
      obtain ⟨b, right, found⟩ := value_bin_of_left (value_of_isOne one) value
      rw [← BinaryOp.exact_mul.1 found, one_mul]
      exact right
  | mulOne a one =>
      obtain ⟨b, left, found⟩ := value_bin_of_right (value_of_isOne one) value
      rw [← BinaryOp.exact_mul.1 found, mul_one]
      exact left
  | zeroDiv zero a =>
      obtain ⟨b, right, found⟩ := value_bin_of_left (value_of_isZero zero) value
      rw [← (BinaryOp.exact_div.1 found).2, zero_div]
      exact value_zero
  | divOne a one =>
      obtain ⟨b, left, found⟩ := value_bin_of_right (value_of_isOne one) value
      rw [← (BinaryOp.exact_div.1 found).2, div_one]
      exact left
  | powOne a one =>
      obtain ⟨b, left, found⟩ := value_bin_of_right (value_of_isOne one) value
      obtain ⟨n, exponent, -, rfl⟩ := BinaryOp.exact_pow.1 found
      rw [← Int.cast_one, Int.cast_inj] at exponent
      rw [← exponent, zpow_one]
      exact left
  | powZero a zero =>
      obtain ⟨b, left, found⟩ := value_bin_of_right (value_of_isZero zero) value
      obtain ⟨n, exponent, -, rfl⟩ := BinaryOp.exact_pow.1 found
      rw [← Int.cast_zero, Int.cast_inj] at exponent
      rw [← exponent, zpow_zero]
      exact value_one
  | onePow one a =>
      obtain ⟨b, right, found⟩ := value_bin_of_left (value_of_isOne one) value
      obtain ⟨n, -, -, rfl⟩ := BinaryOp.exact_pow.1 found
      rw [one_zpow]
      exact value_one
  | zeroPow zero a =>
      -- The power is defined, so its exponent is above zero.
      obtain ⟨b, right, found⟩ := value_bin_of_left (value_of_isZero zero) value
      obtain ⟨n, -, above, rfl⟩ := BinaryOp.exact_pow.1 found
      rw [zero_zpow n (above rfl).ne']
      exact value_zero
  | mulDiv k x =>
      obtain ⟨p, inner, found⟩ := value_bin_of_right (value_variable x) value
      obtain ⟨b, factor, product⟩ := value_bin_of_right (value_variable x) inner
      obtain ⟨notZero, rfl⟩ := BinaryOp.exact_div.1 found
      rw [← BinaryOp.exact_mul.1 product, mul_div_cancel_right₀ b notZero]
      exact factor
  | mulDivLeft x k =>
      obtain ⟨p, inner, found⟩ := value_bin_of_right (value_variable x) value
      obtain ⟨b, factor, product⟩ := value_bin_of_left (value_variable x) inner
      obtain ⟨notZero, rfl⟩ := BinaryOp.exact_div.1 found
      rw [← BinaryOp.exact_mul.1 product, mul_div_cancel_left₀ b notZero]
      exact factor

/-! ### Laws and chains -/

theorem Law.value {e e' : Expr} (law : Law e e') (value : i.value e = some q) :
    i.value e' = some q := by
  cases law with
  | settles settles => exact settles.value value
  | regroups regroups => exact regroups.value value
  | negNeg a =>
      obtain ⟨b, inner, rfl⟩ := value_neg.1 value
      obtain ⟨c, innermost, rfl⟩ := value_neg.1 inner
      rw [neg_neg]
      exact innermost

theorem valueAll_replace {a a' : Expr} (same : ∀ q, i.value a = some q → i.value a' = some q)
    (before after : List Expr) {values : List ℚ}
    (all : i.valueAll (before ++ a :: after) = some values) :
    i.valueAll (before ++ a' :: after) = some values := by
  induction before generalizing values with
  | nil =>
      obtain ⟨b, first, more, others, rfl⟩ := valueAll_cons.1 all
      exact valueAll_cons.2 ⟨b, same b first, more, others, rfl⟩
  | cons e rest ih =>
      obtain ⟨b, first, more, others, rfl⟩ := valueAll_cons.1 all
      exact valueAll_cons.2 ⟨b, first, more, ih others, rfl⟩

/-- A fold is exact if its constant is the exact value of what it replaces. -/
def IsExact (i : Interpretation) (fold : Fold) : Prop :=
  ∀ q, i.value fold.expression = some q → Decimal.exactValue? fold.value = some q

theorem Link.value {strict : Bool} {e e' : Expr} {folds : List Fold}
    (link : Link strict e folds e') (exact : ∀ f ∈ folds, IsExact i f)
    (value : i.value e = some q) : i.value e' = some q := by
  induction link generalizing q with
  | law law => exact law.value value
  | fold _ _ => exact exact _ List.mem_cons_self q value
  | left op b _ ih =>
      obtain ⟨a, first, b, second, found⟩ := value_bin.1 value
      exact value_bin.2 ⟨a, ih exact first, b, second, found⟩
  | right op a _ ih =>
      obtain ⟨a, first, b, second, found⟩ := value_bin.1 value
      exact value_bin.2 ⟨a, first, b, ih exact second, found⟩
  | operand _ ih =>
      obtain ⟨a, inner, found⟩ := value_neg.1 value
      exact value_neg.2 ⟨a, ih exact inner, found⟩
  | argument name before after _ ih =>
      obtain ⟨values, all, found⟩ := value_call.1 value
      have others := valueAll_replace (fun _ inner => ih exact inner) before after all
      exact value_call.2 ⟨values, others, found⟩

theorem Chain.value {strict : Bool} {e s : Expr} {folds : List Fold} (chain : Chain strict e folds s)
    (exact : ∀ f ∈ folds, IsExact i f) (value : i.value e = some q) : i.value s = some q := by
  induction chain with
  | nil => exact value
  | cons link _ ih =>
      have first := link.value (fun f inside => exact f (List.mem_append_left _ inside)) value
      exact ih (fun f inside => exact f (List.mem_append_right _ inside)) first

end

/-- An expression and its simplification are the ends of a chain of folds and laws. Along any such
chain whose folds are exact, an expression with all its parts defined in exact arithmetic stays
defined and keeps its value. -/
theorem simplify_chain (strict : Bool) (level : Level) (e : Expr) :
    (∃ folds, Chain strict e folds (simplify strict level e).tree) ∧
      ∀ folds s, Chain strict e folds s → ∀ i : Interpretation, e.Everywhere i.IsDefinedAt →
        (∀ f ∈ folds, IsExact i f) →
          s.Everywhere i.IsDefinedAt ∧ i.value s = i.value e := by
  refine ⟨reaches_of_rewrites (rewrites_simplify strict level e), ?_⟩
  intro folds s chain i defined exact
  obtain ⟨q, value⟩ := isDefinedAt_iff.1 defined.root
  have reached := chain.value exact value
  exact ⟨everywhere_of_isDefinedAt s (isDefinedAt_iff.2 ⟨q, reached⟩), reached.trans value.symm⟩

/-- The product `x * (1 / x)` becomes `1 * x ^ (1 - 1)`, and ends as the constant one, which is its
value where `x` is three. -/
theorem simplify_chain_reciprocal :
    (simplify false .silent (.bin .mul (.var "x") (.bin .div .one (.var "x")))).tree = .one ∧
      value ⟨fun _ => 3, fun _ _ => none⟩ .one =
        value ⟨fun _ => 3, fun _ _ => none⟩ (.bin .mul (.var "x") (.bin .div .one (.var "x"))) := by
  let e : Expr := .bin .mul (.var "x") (.bin .div .one (.var "x"))
  let i : Interpretation := ⟨fun _ => 3, fun _ _ => none⟩
  have ended : (simplify false .silent e).tree = .one := by
    have kept : nextBinary false .div (.const 1.0) (.var "x") = .keep := rfl
    have again : nextBinary false .mul (.var "x") (.bin .div (.const 1.0) (.var "x")) =
      .again (.bin .mul (.const 1.0) (.bin .pow (.var "x") (.bin .sub .one .one))) := rfl
    have exponent : nextBinary false .sub (.const 1.0) (.const 1.0) = .settle .zero := rfl
    have power : nextBinary false .pow (.var "x") .zero = .settle .one := rfl
    have product : nextBinary false .mul (.const 1.0) (.const 1.0) = .settle .one := rfl
    simp only [e, one, simplify_bin, simplify_const, simplify_var, kept, again, exponent, power,
      product]
  have quotient : i.value (.bin .div .one (.var "x")) = some (1 / 3) :=
    value_bin.2 ⟨1, value_one, 3, rfl, BinaryOp.exact_div.2 ⟨by norm_num, rfl⟩⟩
  have value : i.value e = some 1 :=
    value_bin.2 ⟨3, rfl, _, quotient, BinaryOp.exact_mul.2 (by norm_num)⟩
  have defined := everywhere_of_isDefinedAt e (isDefinedAt_iff.2 ⟨1, value⟩)
  have chain : Chain false e [⟨.bin .sub .one .one, 0.0⟩, ⟨.bin .mul .one .one, 1.0⟩] .one :=
    .cons (.law (.regroups (.timesQuotient .one .itself)))
      (.cons (.right .mul _ (.right .pow _ (.fold (.operation .sub 1.0 1.0) rfl)))
        (.cons (.right .mul _ (.law (.settles (.powZero _ (by decide +kernel)))))
          (.cons (.fold (.operation .mul 1.0 1.0) rfl) (.nil _))))
  have exact : ∀ f ∈ ([⟨.bin .sub .one .one, 0.0⟩, ⟨.bin .mul .one .one, 1.0⟩] : List Fold),
      IsExact i f := by
    have difference : i.value (.bin .sub .one .one) = some 0 :=
      value_bin.2 ⟨1, value_one, 1, value_one, BinaryOp.exact_sub.2 (sub_self 1)⟩
    have product : i.value (.bin .mul .one .one) = some 1 :=
      value_bin.2 ⟨1, value_one, 1, value_one, BinaryOp.exact_mul.2 (mul_one 1)⟩
    refine List.forall_mem_cons.2 ⟨fun q value => ?_, List.forall_mem_singleton.2 fun q value => ?_⟩
    · exact (value_zero (i := i)).trans (difference.symm.trans value)
    · exact (value_one (i := i)).trans (product.symm.trans value)
  exact ⟨ended, ((simplify_chain false .silent e).2 _ _ chain i defined exact).2⟩

end Formula.Expr
