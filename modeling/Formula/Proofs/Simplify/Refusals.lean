import Formula.Proofs.Decimal.Units
import Formula.Proofs.Expr.Strictness
import Formula.Proofs.Simplify.Folding

/-!
Refusals of strict arithmetic. An operation on constants that strict arithmetic refuses is not folded,
and the laws come next. They leave it alone, so that it is refused again when the simplified expression
is evaluated, with one exception: a zero on the left of a division by zero settles it.
-/

set_option autoImplicit false

namespace Formula

namespace BinaryOp

variable {op : BinaryOp} {a b : Float}

/-- A division by zero that is hidden by a zero on the left: the quotient of two zeros, or a negative
power of zero. -/
def hidesDivision (op : BinaryOp) (a b : Float) : Bool := op.dividesByZero a b && a == 0.0

/-- What strict arithmetic refuses is a division by zero, or an infinite result of finite operands. -/
theorem refused_cases {failure : Failure} (refused : op.value true a b = .error failure) :
    op.dividesByZero a b = true ∨
      op.dividesByZero a b = false ∧ (op.plain a b).isInf = true ∧ a.isFinite = true ∧
        b.isFinite = true := by
  rw [BinaryOp.value] at refused
  cases divisor : op.dividesByZero a b with
  | true => exact .inl rfl
  | false =>
      rw [divisor, Bool.and_false, if_neg Bool.false_ne_true, checkOverflow] at refused
      split at refused
      · next overflow =>
          simp only [Bool.true_and, Bool.and_eq_true, List.all_cons, List.all_nil,
            Bool.and_true] at overflow
          exact .inr ⟨rfl, overflow⟩
      · cases refused

/-- Powers that the laws settle are the base, one or zero, unless they divide by zero. The library
takes none of them for an infinity. -/
def SettledPowerIsBounded (a b : Float) : Prop :=
  (b == 1.0) = true ∨ (b == 0.0) = true ∨ (a == 1.0) = true ∨ (a == 0.0) = true ∧ ¬ b < 0.0 →
    a.isFinite = true → b.isFinite = true → (Float.pow a b).isInf = false

end BinaryOp

namespace Expr

variable {op : BinaryOp} {a b : Float} {e : Expr}

/-- An operation on constants that a law settles does not overflow. -/
theorem Settles.isInf_plain (settles : Settles op (.const a) (.const b) e)
    (power : op = .pow → BinaryOp.SettledPowerIsBounded a b)
    (divisor : op.dividesByZero a b = false) (first : a.isFinite = true)
    (second : b.isFinite = true) : (op.plain a b).isInf = false := by
  cases settles with
  | zeroAdd zero | zeroMul zero | zeroDiv zero =>
      exact BinaryOp.isInf_plain_zero_left (by decide) zero second
  | addZero _ zero | subZero _ zero | mulZero _ zero =>
      exact BinaryOp.isInf_plain_zero_right (by decide) (by decide) first zero
  | oneMul one => exact BinaryOp.isInf_one_mul one second
  | mulOne _ one => exact BinaryOp.isInf_mul_one first one
  | divOne _ one => exact BinaryOp.isInf_div_one first one
  | powOne _ one => exact BinaryOp.isInf_power (power rfl (.inl one) first second)
  | powZero _ zero => exact BinaryOp.isInf_power (power rfl (.inr (.inl zero)) first second)
  | onePow one => exact BinaryOp.isInf_power (power rfl (.inr (.inr (.inl one))) first second)
  | zeroPow zero =>
      have zero : (a == 0.0) = true := zero
      have notBelow : ¬ b < 0.0 := by
        simpa only [BinaryOp.dividesByZero, zero, Bool.true_and, decide_eq_false_iff_not]
          using divisor
      exact BinaryOp.isInf_power (power rfl (.inr (.inr (.inr ⟨zero, notBelow⟩))) first second)

/-- Among the laws only those for a zero on the left look at a division by zero. -/
theorem identity?_of_dividesByZero (divides : op.dividesByZero a b = true) :
    identity? op (.const a) (.const b) = if (a == 0.0) = true then some .zero else none := by
  obtain ⟨rfl, zero⟩ | ⟨rfl, zero, below⟩ := (BinaryOp.dividesByZero_iff op a b).1 divides
  · have notOne : (b == 1.0) = false := by
      rcases Decimal.eq_zero_of_beq zero with rfl | rfl <;> decide
    simp only [identity?, isConstant, notOne, Bool.false_eq_true, ↓reduceIte]
  · have notOne : (b == 1.0) = false := by
      rw [Bool.eq_false_iff]
      intro one
      rw [Decimal.eq_one_of_beq one] at below
      exact absurd below (by decide)
    have notZero : (b == 0.0) = false := by
      rw [Bool.eq_false_iff]
      intro none
      rcases Decimal.eq_zero_of_beq none with rfl | rfl <;> exact absurd below (by decide)
    have notOne' : (a == 1.0) = false := by
      rcases Decimal.eq_zero_of_beq zero with rfl | rfl <;> decide
    simp only [identity?, isConstant, notOne, notZero, notOne', zero, Bool.false_eq_true,
      ↓reduceIte]

/-- Of the operations that strict arithmetic refuses, a law settles those that hide a division. -/
theorem identity?_of_refused {failure : Failure} (refused : op.value true a b = .error failure)
    (power : op = .pow → BinaryOp.SettledPowerIsBounded a b) :
    identity? op (.const a) (.const b) =
      if op.hidesDivision a b = true then some .zero else none := by
  obtain divides | ⟨divisor, overflow, first, second⟩ := BinaryOp.refused_cases refused
  · rw [identity?_of_dividesByZero divides, BinaryOp.hidesDivision, divides, Bool.true_and]
  · rw [BinaryOp.hidesDivision, divisor, Bool.false_and, if_neg Bool.false_ne_true]
    cases identity : identity? op (.const a) (.const b) with
    | none => rfl
    | some e =>
        -- A law that applies keeps the result finite, so it was no overflow.
        have bounded := (settles_of_identity? identity).isInf_plain power divisor first second
        rw [bounded] at overflow
        cases overflow

/-- The rules over powers need a variable. -/
theorem powerRule_constants : powerRule op (.const a) (.const b) = .none := by
  cases op <;> rfl

theorem nextBinary_of_refused {failure : Failure} (refused : op.value true a b = .error failure)
    (power : op = .pow → BinaryOp.SettledPowerIsBounded a b) :
    nextBinary true op (.const a) (.const b) =
      if op.hidesDivision a b = true then .settle .zero else .keep := by
  simp only [nextBinary, foldBinary, refused, reduce, identity?_of_refused refused power,
    powerRule_constants]
  cases op.hidesDivision a b <;> rfl

/-- In strict arithmetic an operation whose operands are simplified to constants, and which is refused
for these constants, is left with them, and evaluating it is refused for the same reason in every
context. Only a zero on the left of a division by zero hides the refusal: then the operation is
simplified to zero, which has a value. -/
theorem simplify_refused (level : Level) (c : Context) {op : BinaryOp} {left right : Expr}
    {a b : Float} {failure : Failure} (first : (simplify true level left).tree = .const a)
    (second : (simplify true level right).tree = .const b)
    (refused : evaluate true c (.bin op (.const a) (.const b)) = .error failure)
    (power : op = .pow → BinaryOp.SettledPowerIsBounded a b) :
    (op.hidesDivision a b = false →
      (simplify true level (.bin op left right)).tree = .bin op (.const a) (.const b) ∧
        ∀ c, evaluate true c (simplify true level (.bin op left right)).tree = .error failure) ∧
    (op.hidesDivision a b = true →
      (simplify true level (.bin op left right)).tree = .zero ∧
        ∀ c, evaluate true c (simplify true level (.bin op left right)).tree = .ok 0.0) := by
  have next := nextBinary_of_refused refused power
  rw [tree_simplify_bin, first, second]
  refine ⟨fun shown => ?_, fun hidden => ?_⟩
  · rw [next, shown, if_neg Bool.false_ne_true]
    exact ⟨rfl, fun _ => refused⟩
  · rw [next, if_pos hidden]
    exact ⟨rfl, fun _ => rfl⟩

/-- In `1 / (2 - 2)` the quotient is refused, and it is left as `1 / 0`. -/
theorem simplify_refused_quotient :
    let right : Expr := .bin .sub (.const 2.0) (.const 2.0)
    let failure : Failure := .arithmetic (.zeroDivision .div 1.0 0.0)
    (simplify true .silent (.const 1.0)).tree = .const 1.0 ∧
      (simplify true .silent right).tree = .const 0.0 ∧
      evaluate true .empty (.bin .div (.const 1.0) (.const 0.0)) = .error failure ∧
      (simplify true .silent (.bin .div (.const 1.0) right)).tree =
        .bin .div (.const 1.0) (.const 0.0) ∧
      ∀ c, evaluate true c (simplify true .silent (.bin .div (.const 1.0) right)).tree =
        .error failure := by
  intro right failure
  have first : (simplify true .silent (.const 1.0)).tree = .const 1.0 := by rw [simplify_const]
  have second : (simplify true .silent right).tree = .const 0.0 := by
    rw [tree_simplify_bin, simplify_const, nextBinary_constants rfl]
    rfl
  have refused : evaluate true .empty (.bin .div (.const 1.0) (.const 0.0)) = .error failure := rfl
  exact ⟨first, second, refused,
    (simplify_refused .silent .empty first second refused (by simp)).1 (by decide +kernel)⟩

/-- The quotient `0 / 0` is refused, but simplified it is zero. -/
theorem simplify_zero_div_zero :
    evaluate true .empty (.bin .div (.const 0.0) (.const 0.0)) =
        .error (.arithmetic (.zeroDivision .div 0.0 0.0)) ∧
      evaluate true .empty (simplify true .silent (.bin .div (.const 0.0) (.const 0.0))).tree =
        .ok 0.0 := by
  refine ⟨rfl, ?_⟩
  rw [tree_simplify_bin, simplify_const]
  rfl

end Expr

end Formula
