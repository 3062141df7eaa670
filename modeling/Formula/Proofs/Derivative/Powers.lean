import Formula.Proofs.Decimal.Predecessors
import Formula.Proofs.Derivative.Scoping
import Formula.Proofs.Expr.Evaluation
import Formula.Proofs.Simplify.Folding

/-!
The derivative of a power of a variable. The rule for general powers makes a product with a logarithm
and a quotient; simplified, it is the product of the exponent and the power with the exponent less one.
No constant on the way is zero or one by rounding, so no rule for these applies where it should not.
-/

set_option autoImplicit false

namespace Formula.Expr

open Decimal (exactValue?)

section

variable (strict : Bool) (x : String) {n : Float}

/-! ### The operations of the derivative -/

theorem nextBinary_power (notZero : (n == 0.0) = false) (notOne : (n == 1.0) = false) :
    nextBinary strict .pow (.var x) (.const n) = .keep := by
  simp [nextBinary, foldBinary, reduce, identity?, powerRule, isConstant, notZero, notOne]

theorem nextBinary_quotient (notZero : (n == 0.0) = false) :
    nextBinary strict .div (.const n) (.var x) = .keep := by
  simp [nextBinary, foldBinary, reduce, identity?, powerRule, cancelled?, commonBase?, powerForm?,
    isConstant, notZero]

/-- A constant times a reciprocal is a quotient. -/
theorem nextBinary_reciprocal (notZero : (n == 0.0) = false) (notOne : (n == 1.0) = false) :
    nextBinary strict .mul (.const n) (.bin .div .one (.var x)) =
      .again (.bin .div (.const n) (.var x)) := by
  have one : ((1.0 : Float) == 1.0) = true := rfl
  simp [nextBinary, foldBinary, reduce, identity?, powerRule, timesQuotient?, overVariable?,
    powerForm?, isConstant, Expr.one, notZero, notOne, one]

theorem nextBinary_multiple (notZero : (n == 0.0) = false) (notOne : (n == 1.0) = false) (a : Expr) :
    nextBinary strict .mul (.const n) (.bin .pow (.var x) a) = .keep := by
  simp [nextBinary, foldBinary, reduce, identity?, powerRule, timesQuotient?, overVariable?,
    commonBase?, powerForm?, isConstant, notZero, notOne]

/-- A power times a quotient by its variable has the exponent less one. -/
theorem nextBinary_power_quotient (a c : Expr) :
    nextBinary strict .mul (.bin .pow (.var x) a) (.bin .div c (.var x)) =
      .again (.bin .mul c (.bin .pow (.var x) (.bin .sub a .one))) := by
  simp [nextBinary, foldBinary, reduce, identity?, powerRule, timesQuotient?, overVariable?,
    powerForm?, isConstant]

theorem isConstant_zero : Expr.zero.isConstant 0.0 = true := rfl

theorem nextBinary_zero_call (name : String) (arguments : List Expr) :
    nextBinary strict .mul .zero (.call name arguments) = .settle .zero := by
  simp [nextBinary, foldBinary, reduce, identity?, isConstant_zero]

theorem nextBinary_zero_quotient (a c : Expr) :
    nextBinary strict .add .zero (.bin .div a c) = .settle (.bin .div a c) := by
  simp [nextBinary, foldBinary, reduce, identity?, isConstant_zero]

/-! ### The derivative -/

/-- A power of a variable with a constant exponent is derived by the rule for general powers. -/
theorem differentiate_power (scope : Option Context) (n : Float) :
    (Expr.bin .pow (.var x) (.const n)).differentiate x scope =
      .ok (BinaryOp.derivative .pow (.var x) (.const n) .one .zero) := by
  rw [differentiate_eq, deriveUnder_bin, deriveUnder_var, deriveUnder_const, if_pos rfl]
  rfl

/-- The derivative of a power is simplified by way of `n / x` in place of the sum. -/
theorem rewrites_derivative_power (finite : n.isFinite = true) (notZero : (n == 0.0) = false)
    (notOne : (n == 1.0) = false) (notTwo : (n == 2.0) = false) :
    Rewrites strict (BinaryOp.derivative .pow (.var x) (.const n) .one .zero)
      (.bin .mul (.const n) (.bin .pow (.var x) (.const (n - 1.0)))) := by
  have power : Rewrites strict (.bin .pow (.var x) (.const n)) (.bin .pow (.var x) (.const n)) :=
    .binKept (.var x) (.const n) (nextBinary_power strict x notZero notOne)
  have logarithm : Rewrites strict (.call "ln" [.var x]) (.call "ln" [.var x]) := by
    refine .callKept "ln" [(.var x, .var x)] (fun p inside => ?_) rfl
    rw [List.mem_singleton.1 inside]
    exact .var x
  have none : Rewrites strict (.bin .mul .zero (.call "ln" [.var x])) .zero :=
    .binSettled (.const 0.0) logarithm (nextBinary_zero_call strict "ln" [.var x])
  have reciprocal : Rewrites strict (.bin .div .one (.var x)) (.bin .div .one (.var x)) :=
    .binKept (.const 1.0) (.var x) (nextBinary_quotient strict x (by decide))
  have quotient : Rewrites strict (.bin .mul (.const n) (.bin .div .one (.var x)))
      (.bin .div (.const n) (.var x)) :=
    .binAgain (.const n) reciprocal (nextBinary_reciprocal strict x notZero notOne)
      (.binKept (.const n) (.var x) (nextBinary_quotient strict x notZero))
  have sum := Rewrites.binSettled none quotient (nextBinary_zero_quotient strict (.const n) (.var x))
  -- The exponent less one is folded, and neither rounded to zero nor to one.
  have value : BinaryOp.value strict .sub n 1.0 = .ok (n - 1.0) :=
    BinaryOp.value_of_bounded rfl (Decimal.isInf_of_isFinite (Decimal.isFinite_sub_one finite))
  have lowered : Rewrites strict (.bin .sub (.const n) .one) (.const (n - 1.0)) :=
    .binSettled (.const n) (.const 1.0) (nextBinary_constants value)
  have notZero' : (n - 1.0 == 0.0) = false := by
    rw [← Bool.not_eq_true, Decimal.sub_one_beq_zero finite]
    rintro rfl
    exact absurd notOne (by decide)
  have notOne' : (n - 1.0 == 1.0) = false := by
    rw [← Bool.not_eq_true, Decimal.sub_one_beq_one finite]
    rintro rfl
    exact absurd notTwo (by decide)
  exact .binAgain power sum (nextBinary_power_quotient strict x (.const n) (.const n))
    (.binKept (.const n) (.binKept (.var x) lowered (nextBinary_power strict x notZero' notOne'))
      (nextBinary_multiple strict x notZero notOne _))

end

/-- A product with a constant has a value where the other factor has one, unless it overflows in strict
arithmetic. -/
theorem evaluate_multiple {strict : Bool} {c : Context} {n p : Float} {e : Expr}
    (value : e.evaluate strict c = .ok p) : (Expr.bin .mul (.const n) e).evaluate strict c =
      checkOverflow strict (.operator .mul) [n, p] (n * p) := by
  have product : (Expr.bin .mul (.const n) e).evaluate strict c =
      BinaryOp.value strict .mul n p := by
    rw [evaluate, evaluate, value]
    rfl
  rw [product, BinaryOp.value]
  simp only [BinaryOp.dividesByZero, Bool.and_false, Bool.false_eq_true, ↓reduceIte,
    BinaryOp.plain]

/-- The power rule: for a finite exponent other than zero, one and two the simplified derivative of
`x ^ n` is `n * x ^ (n - 1)`. It has a value wherever the power has one, also in exact arithmetic. -/
theorem simplify_differentiate_power (strict : Bool) (level : Level) (scope : Option Context)
    (x : String) (n : Float) (finite : n.isFinite = true) (notZero : (n == 0.0) = false)
    (notOne : (n == 1.0) = false) (notTwo : (n == 2.0) = false) :
    let power : Expr := .bin .pow (.var x) (.const (n - 1.0))
    let slope : Expr := .bin .mul (.const n) power
    (∃ d, (Expr.bin .pow (.var x) (.const n)).differentiate x scope = .ok d ∧
      (simplify strict level d).tree = slope) ∧
    (∀ (strict : Bool) (c : Context) (p : Float), power.evaluate strict c = .ok p →
      slope.evaluate strict c = checkOverflow strict (.operator .mul) [n, p] (n * p)) ∧
    ∃ a, exactValue? n = some a ∧ ∀ (i : Interpretation) (p : ℚ), i.value power = some p →
      i.value slope = some (a * p) := by
  intro power slope
  refine ⟨⟨_, differentiate_power x scope n, ?_⟩, fun _ _ _ value => evaluate_multiple value, ?_⟩
  · exact tree_of_rewrites level (rewrites_derivative_power strict x finite notZero notOne notTwo)
  · obtain ⟨b, decoded⟩ := Decimal.decode_of_isFinite finite
    refine ⟨b.value, Decimal.exactValue?_of_decode decoded, fun i p value => ?_⟩
    exact Interpretation.value_bin.2
      ⟨b.value, Decimal.exactValue?_of_decode decoded, p, value, rfl⟩

/-- The derivative of the square root is `0.5 * x ^ (-0.5)`. -/
theorem simplify_differentiate_power_half :
    (0.5 : Float).isFinite = true ∧ ((0.5 : Float) == 0.0) = false ∧
      ((0.5 : Float) == 1.0) = false ∧ ((0.5 : Float) == 2.0) = false ∧
      ∃ d, (Expr.bin .pow (.var "x") (.const 0.5)).differentiate "x" none = .ok d ∧
        (simplify true .silent d).tree =
          .bin .mul (.const 0.5) (.bin .pow (.var "x") (.const (-0.5))) := by
  have finite : (0.5 : Float).isFinite = true := by decide
  have notZero : ((0.5 : Float) == 0.0) = false := by decide
  have notOne : ((0.5 : Float) == 1.0) = false := by decide
  have notTwo : ((0.5 : Float) == 2.0) = false := by decide
  have lowered : (0.5 : Float) - 1.0 = -0.5 := by decide
  obtain ⟨⟨d, derived, simplified⟩, -, -⟩ := simplify_differentiate_power true .silent none "x" 0.5
    finite notZero notOne notTwo
  rw [lowered] at simplified
  exact ⟨finite, notZero, notOne, notTwo, d, derived, simplified⟩

end Formula.Expr
