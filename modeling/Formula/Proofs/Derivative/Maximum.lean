import Formula.Function.Stock
import Formula.Proofs.Decimal.Differences
import Formula.Proofs.Derivative.Orders
import Formula.Proofs.Derivative.Room
import Formula.Proofs.Expr.Mirrors
import Formula.Proofs.Simplify.Vanishing

/-!
The derivative of the greater of two expressions. It is a sum of two products, in which one of the two
derivatives has the factor one and the other one the factor zero. Which is which hangs on the difference
of the greater value and the first: it is zero or positive, and a step tells a negative zero from what is
below it. So the derivative has the value of that of the dominating expression, even where the
difference overflows, and at a tie that of the first.
-/

set_option autoImplicit false

namespace Formula

/-! ### The factors -/

section

variable {a b : Float}

/-- The step at the turned difference of the greater of two values and the first. -/
theorem stepValue_difference (finite : a.isFinite = true) (finite' : b.isFinite = true) :
    stepValue (-(maxValue a b - a)) = if a < b then 0.0 else 1.0 := by
  have number := isNaN_of_isFinite finite
  have number' := isNaN_of_isFinite finite'
  have greater : maxValue a b = if a < b then b else a := by
    simp only [maxValue, number, number', Bool.or_self, Bool.false_eq_true, ↓reduceIte]
  rw [greater]
  by_cases less : a < b
  · rw [if_pos less, if_pos less, stepValue]
    exact if_pos (Decimal.neg_sub_lt_zero finite finite' less)
  · -- The turned difference is a negative zero, which is not below zero.
    rw [if_neg less, if_neg less, Decimal.sub_self_of_isFinite finite]
    decide

/-- A sum with the factors one and zero has the value of the first summand. -/
theorem select_first (finite : a.isFinite = true) (finite' : b.isFinite = true) :
    (1.0 * a + (1.0 - 1.0) * b == a) = true := by
  rw [BinaryOp.one_mul_of_isFinite finite]
  exact BinaryOp.add_zero_beq finite (BinaryOp.isZero_zero_mul (by decide) finite')

theorem select_second (finite : a.isFinite = true) (finite' : b.isFinite = true) :
    (0.0 * a + (1.0 - 0.0) * b == b) = true := by
  have one : (1.0 - 0.0 : Float) = 1.0 := by decide
  rw [one, BinaryOp.one_mul_of_isFinite finite', add_swap]
  exact BinaryOp.add_zero_beq finite' (BinaryOp.isZero_zero_mul (by decide) finite)

end

namespace Expr

/-! ### The value of the derivative -/

section

variable {c : Context}

theorem evaluateAll_singleton {e : Expr} {v : Float} (value : evaluate false c e = .ok v) :
    evaluateAll false c [e] = .ok [v] :=
  evaluateAll_cons_eq_ok.2 ⟨v, value, [], rfl, rfl⟩

theorem evaluateAll_pair {e f : Expr} {v w : Float} (first : evaluate false c e = .ok v)
    (second : evaluate false c f = .ok w) : evaluateAll false c [e, f] = .ok [v, w] :=
  evaluateAll_cons_eq_ok.2 ⟨v, first, [w], evaluateAll_singleton second, rfl⟩

theorem evaluate_plain (op : BinaryOp) {left right : Expr} {v w : Float}
    (first : evaluate false c left = .ok v) (second : evaluate false c right = .ok w) :
    evaluate false c (.bin op left right) = .ok (op.plain v w) :=
  evaluate_bin_eq_ok.2 ⟨v, first, w, second, op.value_plain v w⟩

variable {a b : Expr} {va vb : Float}

theorem evaluate_firstDominates (unhidden : c.functions.get? Builtin.max.name = none)
    (unhidden' : c.functions.get? Builtin.heaviside.name = none)
    (first : evaluate false c a = .ok va) (second : evaluate false c b = .ok vb) :
    evaluate false c (Builtin.firstDominates a b) =
      .ok (stepValue (-(maxValue va vb - va))) := by
  have greater : evaluate false c (.call "max" [a, b]) = .ok (maxValue va vb) :=
    evaluate_unhidden (f := .max) unhidden rfl (evaluateAll_pair first second) rfl
  have difference := evaluate_plain .sub greater first
  have turned := evaluate_neg_eq_ok.2 ⟨_, difference, rfl⟩
  exact evaluate_unhidden (f := .heaviside) unhidden' rfl (evaluateAll_singleton turned) rfl

theorem evaluate_selectBranch {a' b' : Expr} {s va' vb' : Float}
    (dominates : evaluate false c (Builtin.firstDominates a b) = .ok s)
    (first : evaluate false c a' = .ok va') (second : evaluate false c b' = .ok vb') :
    evaluate false c (Builtin.selectBranch a b a' b') = .ok (s * va' + (1.0 - s) * vb') := by
  have one : evaluate false c .one = .ok 1.0 := rfl
  have others := evaluate_plain .sub one dominates
  exact evaluate_plain .add (evaluate_plain .mul dominates first)
    (evaluate_plain .mul others second)

end

/-! ### The derivative -/

theorem hasDerivative_maximum {scope : Option Context} {x : String} {a b a' b' : Expr}
    (unhidden : (scope.getD .empty).functions.get? Builtin.max.name = none)
    (first : HasDerivative scope x a a') (second : HasDerivative scope x b b') :
    HasDerivative scope x (.call "max" [a, b]) (Builtin.selectBranch a b a' b') := by
  rw [hasDerivative_iff] at first second ⊢
  intro limit enough
  simp only [ruleLimit, size, totalSize] at enough first second
  obtain ⟨below, rfl⟩ : ∃ below, limit = below + 1 := ⟨limit - 1, by omega⟩
  have rule : ruleUnder (scope.getD .empty) "max" = .ok Builtin.max.rule :=
    ruleUnder_unhidden unhidden
  rw [deriveUnder_call, rule]
  change (Builtin.maxRule [a, b] x).settle _ = _
  rw [Builtin.maxRule, settle_derivative (first below (by omega)),
    settle_derivative (second below (by omega))]
  rfl

/-- The derivative of the greater of two expressions picks the dominating one. Let neither the context of
the derivation nor that of the evaluation hide `max` or the step, and let two expressions and their
derivatives have finite values in plain arithmetic. Then the derivative of the greater of the two has a
value. It is equal to that of the first derivative if the first expression is no less than the second,
and to that of the second derivative if the second expression is greater. This holds where the rules of
the context hand a lack of room on, as built-in rules do. A rule that does not may find another
derivative inside a call than by itself, and so for all other contexts the derivatives must be those that
more room does not change. -/
theorem differentiate_maximum (a b : Expr) (x : String) (scope : Option Context) (c : Context)
    (derivable : (scope.getD .empty).functions.get? "max" = none)
    (unhidden : c.functions.get? "max" = none ∧ c.functions.get? "heaviside" = none)
    {a' b' : Expr} {va vb va' vb' : Float}
    (first : evaluate false c a = .ok va) (second : evaluate false c b = .ok vb)
    (derived : evaluate false c a' = .ok va') (derived' : evaluate false c b' = .ok vb')
    (finite : va.isFinite = true ∧ vb.isFinite = true ∧ va'.isFinite = true ∧ vb'.isFinite = true) :
    ∃ d, ((scope.getD .empty).RulesHandOn →
        a.differentiate x scope = .ok a' → b.differentiate x scope = .ok b' →
          (Expr.call "max" [a, b]).differentiate x scope = .ok d) ∧
      (HasDerivative scope x a a' → HasDerivative scope x b b' →
        HasDerivative scope x (.call "max" [a, b]) d ∧
          (Expr.call "max" [a, b]).differentiate x scope = .ok d) ∧
      ∃ v, evaluate false c d = .ok v ∧
        (va ≥ vb → (v == va') = true) ∧ (vb > va → (v == vb') = true) := by
  obtain ⟨finiteA, finiteB, finiteA', finiteB'⟩ := finite
  have dominates := evaluate_firstDominates unhidden.1 unhidden.2 first second
  rw [stepValue_difference finiteA finiteB] at dominates
  have value := evaluate_selectBranch dominates derived derived'
  have derivative (left : HasDerivative scope x a a') (right : HasDerivative scope x b b') :=
    hasDerivative_maximum derivable left right
  refine ⟨Builtin.selectBranch a b a' b', ?_, ?_, _, value, ?_, ?_⟩
  · intro handOn left right
    have left' := hasDerivative_of_differentiate handOn left
    have right' := hasDerivative_of_differentiate handOn right
    exact (derivative left' right').differentiate
  · intro left right
    exact ⟨derivative left right, (derivative left right).differentiate⟩
  · intro above
    rw [if_neg (Decimal.not_lt_of_le above)]
    exact select_first finiteA' finiteB'
  · intro less
    rw [if_pos less]
    exact select_second finiteA' finiteB'

/-- The greater of `last(x)` and `-x`, where the difference of the two values overflows. -/
theorem differentiate_maximum_overflow :
    let last : Function := ⟨"last", .variadic, Evaluator.last, some Rule.last, by decide⟩
    let c := Context.mk (.ofList [("x", -1.7e308)]) (.ofList [("last", last)])
    let a : Expr := .call "last" [.var "x"]
    let b : Expr := .neg (.var "x")
    c.functions.get? "max" = none ∧ c.functions.get? "heaviside" = none ∧ c.RulesHandOn ∧
      a.differentiate "x" (some c) = .ok .one ∧ b.differentiate "x" (some c) = .ok (.neg .one) ∧
      evaluate false c a = .ok (-1.7e308) ∧ evaluate false c b = .ok (-(-1.7e308)) ∧
      (-(-1.7e308) - -1.7e308 : Float).isInf = true ∧
      ∃ d v, (Expr.call "max" [a, b]).differentiate "x" (some c) = .ok d ∧
        evaluate false c d = .ok v ∧ (v == -1.0) = true := by
  intro last c a b
  have own (name : String) : c.functions.get? name = if "last" = name then some last else none := by
    simp [c, Table.ofList]
  have unhidden : c.functions.get? "max" = none ∧ c.functions.get? "heaviside" = none := ⟨rfl, rfl⟩
  have handOn : c.RulesHandOn := by
    refine ⟨(· = c), rfl, ?_⟩
    rintro c' rfl name f rule found known arguments y
    rw [own, Option.ite_none_right_eq_some] at found
    obtain ⟨-, ⟨⟩⟩ := found
    obtain ⟨⟩ := known
    rw [Rule.last]
    cases arguments.getLast? with
    | none => exact .fail _
    | some u => exact Recipe.handsOn_derivative u y fun du => .done _
  have left : a.differentiate "x" (some c) = .ok .one := rfl
  have right : b.differentiate "x" (some c) = .ok (.neg .one) := rfl
  have first : evaluate false c a = .ok (-1.7e308) := rfl
  have second : evaluate false c b = .ok (-(-1.7e308)) := rfl
  obtain ⟨d, derives, -, v, value, -, greater⟩ := differentiate_maximum a b "x" (some c) c unhidden.1
    unhidden first second (show evaluate false c .one = .ok 1.0 from rfl)
    (show evaluate false c (.neg .one) = .ok (-1.0) from rfl) (by decide +kernel)
  refine ⟨unhidden.1, unhidden.2, handOn, left, right, first, second, by decide +kernel, d, v, ?_⟩
  exact ⟨derives handOn left right, value, greater (by decide +kernel)⟩

end Expr

end Formula
