import Mathlib.Algebra.DualNumber
import Mathlib.Tactic.FieldSimp
import Mathlib.Tactic.Ring
import Formula.Expr.Derivative
import Formula.Proofs.Expr.ExactValue

/-!
Derivatives of rational expressions. A dual number `a + b * ε` carries a tangent `b` beside its value
`a`, and the arithmetic of dual numbers, where `ε * ε` is zero, takes tangents along. Wherever no
divisor is zero, the derivative of a rational expression has the tangent of its value in dual numbers
for its value.
-/

set_option autoImplicit false

namespace Formula

open DualNumber

/-! ### Values in dual numbers -/

/-- The value of an operation in dual numbers, if it has one. A number can be divided by if its
part without `ε` is not zero; powers have no value here. -/
def BinaryOp.dual : BinaryOp → ℚ[ε] → ℚ[ε] → Option ℚ[ε]
  | .add, a, b => some (a + b)
  | .sub, a, b => some (a - b)
  | .mul, a, b => some (a * b)
  | .div, a, b => if b.fst = 0 then none else some (a * b⁻¹)
  | .pow, _, _ => none

/-- A quotient in dual numbers is the number that gives the dividend when it is multiplied by the
divisor. -/
theorem BinaryOp.dual_div {a b z : ℚ[ε]} (invertible : b.fst ≠ 0) :
    BinaryOp.dual .div a b = some z ↔ z * b = a := by
  have inverse : b⁻¹ * b = 1 := TrivSqZeroExt.inv_mul_cancel invertible
  rw [dual, if_neg invertible, Option.some_inj]
  constructor
  · rintro rfl
    rw [mul_assoc, inverse, mul_one]
  · rintro rfl
    rw [mul_assoc, mul_comm b, inverse, mul_one]

namespace Interpretation

/-- The value of an expression in dual numbers, if it has one. One variable carries the tangent one,
all others and the constants carry the tangent zero. Calls have no value here. -/
def dualValue (i : Interpretation) (x : String) : Expr → Option ℚ[ε]
  | .const v => (Decimal.exactValue? v).map TrivSqZeroExt.inl
  | .var y =>
    let value := TrivSqZeroExt.inl (i.ofVariable y)
    some (if y = x then value + ε else value)
  | .bin op left right => do
    let a ← dualValue i x left
    let b ← dualValue i x right
    op.dual a b
  | .neg operand => (dualValue i x operand).map (- ·)
  | .call _ _ => none

/-- A node that is no quotient, or one by a divisor other than zero. -/
def HasDivisor (i : Interpretation) : Expr → Prop
  | .bin .div _ divisor => i.value divisor ≠ some 0
  | _ => True

/-- The values of an expression and of its derivative are the two parts of a dual number. -/
structure Carries (i : Interpretation) (e derived : Expr) (z : ℚ[ε]) : Prop where
  value : i.value e = some z.fst
  tangent : i.value derived = some z.snd

variable {i : Interpretation}

theorem value_bin_of {op : BinaryOp} {left right : Expr} {a b : ℚ} (first : i.value left = some a)
    (second : i.value right = some b) : i.value (.bin op left right) = op.exact a b := by
  rw [Interpretation.value, first, second]
  rfl

theorem carries_const {v : Float} {q : ℚ} (finite : Decimal.exactValue? v = some q) :
    i.Carries (.const v) .zero (TrivSqZeroExt.inl q) :=
  ⟨finite, value_zero⟩

theorem carries_var (x y : String) :
    i.Carries (.var y) (if y = x then .one else .zero)
      (if y = x then TrivSqZeroExt.inl (i.ofVariable y) + ε
        else TrivSqZeroExt.inl (i.ofVariable y)) := by
  split
  · exact ⟨by simp [value_variable], by simp [value_one]⟩
  · exact ⟨rfl, value_zero⟩

theorem Carries.neg {e derived : Expr} {z : ℚ[ε]} (operand : i.Carries e derived z) :
    i.Carries (.neg e) (.neg derived) (-z) :=
  ⟨value_neg.2 ⟨_, operand.value, rfl⟩, value_neg.2 ⟨_, operand.tangent, rfl⟩⟩

section

variable {u v du dv : Expr} {a b : ℚ[ε]}

/-- The products of one operand and the other one's derivative, which the rules for products and for
quotients put together. -/
theorem Carries.products (first : i.Carries u du a) (second : i.Carries v dv b) :
    i.value (.bin .mul du v) = some (a.snd * b.fst) ∧
      i.value (.bin .mul u dv) = some (a.fst * b.snd) :=
  ⟨value_bin_of first.tangent second.value, value_bin_of first.value second.tangent⟩

theorem Carries.mul (first : i.Carries u du a) (second : i.Carries v dv b) :
    i.Carries (.bin .mul u v) (BinaryOp.derivative .mul u v du dv) (a * b) := by
  obtain ⟨left, right⟩ := first.products second
  have sum : i.value (BinaryOp.derivative .mul u v du dv) =
      some (a.snd * b.fst + a.fst * b.snd) := value_bin_of left right
  refine ⟨value_bin_of first.value second.value, sum.trans ?_⟩
  rw [DualNumber.snd_mul, add_comm, mul_comm a.snd]

theorem Carries.div (first : i.Carries u du a) (second : i.Carries v dv b) (proper : b.fst ≠ 0) :
    i.Carries (.bin .div u v) (BinaryOp.derivative .div u v du dv) (a * b⁻¹) := by
  obtain ⟨left, right⟩ := first.products second
  have difference : i.value (.bin .sub (.bin .mul du v) (.bin .mul u dv)) =
      some (a.snd * b.fst - a.fst * b.snd) := value_bin_of left right
  have square : i.value (.bin .pow v .two) = some (b.fst * b.fst) :=
    value_bin.2 ⟨_, second.value, 2, value_two,
      BinaryOp.exact_pow.2 ⟨2, rfl, fun _ => two_pos, zpow_two b.fst⟩⟩
  constructor
  · refine value_bin.2 ⟨_, first.value, _, second.value, BinaryOp.exact_div.2 ⟨proper, ?_⟩⟩
    rw [TrivSqZeroExt.fst_mul, TrivSqZeroExt.fst_inv, div_eq_mul_inv]
  · refine value_bin.2 ⟨_, difference, _, square,
      BinaryOp.exact_div.2 ⟨mul_self_ne_zero.2 proper, ?_⟩⟩
    simp only [DualNumber.snd_mul, TrivSqZeroExt.fst_inv, TrivSqZeroExt.snd_inv,
      MulOpposite.op_inv, smul_eq_mul, MulOpposite.smul_eq_mul_unop, MulOpposite.unop_inv,
      MulOpposite.unop_op]
    field_simp
    ring

/-- The rules for operations: the derivative of an operation carries the tangent of its value. -/
theorem Carries.bin {op : BinaryOp} (rational : op ≠ .pow) (first : i.Carries u du a)
    (second : i.Carries v dv b) (proper : i.HasDivisor (.bin op u v)) :
    ∃ z, op.dual a b = some z ∧ i.Carries (.bin op u v) (op.derivative u v du dv) z := by
  cases op with
  | add => exact ⟨a + b, rfl, value_bin_of first.value second.value,
      value_bin_of first.tangent second.tangent⟩
  | sub => exact ⟨a - b, rfl, value_bin_of first.value second.value,
      value_bin_of first.tangent second.tangent⟩
  | mul => exact ⟨a * b, rfl, first.mul second⟩
  | div =>
      have invertible : b.fst ≠ 0 := by
        intro zero
        rw [HasDivisor, second.value, zero] at proper
        exact proper rfl
      exact ⟨a * b⁻¹, if_neg invertible, first.div second invertible⟩
  | pow => exact absurd rfl rational

end

end Interpretation

namespace Expr

/-- A node of a rational expression: no power and no call. -/
def IsRational : Expr → Prop
  | .bin op _ _ => op ≠ .pow
  | .call _ _ => False
  | .const _ | .var _ | .neg _ => True

/-! ### Derivatives without calls -/

section

variable {x : String} {e derived : Expr}

/-- Without calls a derivative depends on no context and on no rule. -/
theorem differentiate_of_pure
    (plain : ∀ call : String → List Expr → Derivation Context Expr,
      deriveWith call x e = pure derived) (scope : Option Context) :
    e.differentiate x scope = .ok derived := by
  have derives (limit : Nat) : (derive limit x e : Derivation Context Expr) = pure derived := by
    cases limit with
    | zero => exact plain _
    | succ limit => exact plain _
  rw [differentiate, deriveIn, derives]
  cases scope <;> rfl

end

/-- A rational expression has a derivative, which carries the tangent of its value in dual numbers. -/
theorem deriveWith_carries (i : Interpretation) (x : String) (e : Expr)
    (rational : e.Everywhere IsRational) (finite : e.Everywhere HasFiniteValue)
    (proper : e.Everywhere i.HasDivisor) :
    ∃ derived z, (∀ call : String → List Expr → Derivation Context Expr,
        deriveWith call x e = pure derived) ∧ i.dualValue x e = some z ∧ i.Carries e derived z := by
  induction e using Expr.induction with
  | const v =>
      obtain ⟨b, decoded⟩ := finite.root
      have exact := Decimal.exactValue?_of_decode decoded
      refine ⟨.zero, _, fun _ => rfl, ?_, Interpretation.carries_const exact⟩
      rw [Interpretation.dualValue, exact, Option.map_some]
  | var y => exact ⟨_, _, fun _ => rfl, rfl, Interpretation.carries_var x y⟩
  | bin op u v first second =>
      obtain ⟨du, a, derivesU, dualU, carriesU⟩ := first rational.left finite.left proper.left
      obtain ⟨dv, b, derivesV, dualV, carriesV⟩ := second rational.right finite.right proper.right
      obtain ⟨z, dual, carries⟩ := carriesU.bin rational.root carriesV proper.root
      refine ⟨op.derivative u v du dv, z, fun call => ?_, ?_, carries⟩
      · rw [deriveWith, derivesU, derivesV, pure_bind, pure_bind]
      · rw [Interpretation.dualValue, dualU, dualV]
        exact dual
  | neg u ih =>
      obtain ⟨du, a, derives, dual, carries⟩ := ih rational.operand finite.operand proper.operand
      refine ⟨.neg du, -a, fun call => ?_, ?_, carries.neg⟩
      · rw [deriveWith, derives, pure_bind]
      · rw [Interpretation.dualValue, dual, Option.map_some]
  | call name arguments _ => exact rational.root.elim

/-- The derivative of a rational expression with finite constants, in whatever context, is defined
wherever no divisor in the expression is zero. There its exact value is the tangent of the value of
the expression in dual numbers. -/
theorem differentiate_tangent (i : Interpretation) (x : String) (scope : Option Context) (e : Expr)
    (rational : e.Everywhere IsRational) (finite : e.Everywhere HasFiniteValue)
    (proper : e.Everywhere i.HasDivisor) :
    ∃ derived z, e.differentiate x scope = .ok derived ∧ i.dualValue x e = some z ∧
      i.value e = some z.fst ∧ i.value derived = some z.snd := by
  obtain ⟨derived, z, derives, dual, carries⟩ := deriveWith_carries i x e rational finite proper
  exact ⟨derived, z, differentiate_of_pure derives scope, dual, carries.value, carries.tangent⟩

/-- The derivative of `x / (3 - x)` is three quarters where `x` is one. -/
theorem differentiate_tangent_quotient :
    let e : Expr := .bin .div (.var "x") (.bin .sub (.const 3.0) (.var "x"))
    let i : Interpretation := ⟨fun _ => 1, fun _ _ => none⟩
    e.Everywhere IsRational ∧ e.Everywhere HasFiniteValue ∧ e.Everywhere i.HasDivisor ∧
      ∃ derived, e.differentiate "x" none = .ok derived ∧ i.value derived = some (3 / 4) := by
  intro e i
  have decoded : Decimal.decode 3.0 = .finite ⟨false, 3 * 2 ^ 51, -51⟩ := by decide +kernel
  have three : Decimal.exactValue? 3.0 = some 3 := by
    rw [Decimal.exactValue?_of_decode decoded, Decimal.Binary.value]
    norm_num [Decimal.signed]
  have divisor : i.value (.bin .sub (.const 3.0) (.var "x")) = some 2 := by
    have constant : i.value (.const 3.0) = some 3 := three
    have difference : i.value (.bin .sub (.const 3.0) (.var "x")) = some (3 - 1) :=
      Interpretation.value_bin_of constant rfl
    rw [difference]
    norm_num
  have rational : e.Everywhere IsRational := by simp [e, IsRational]
  have finite : e.Everywhere HasFiniteValue := by simp [e, HasFiniteValue, decoded]
  have proper : e.Everywhere i.HasDivisor := by simp [e, Interpretation.HasDivisor, divisor]
  refine ⟨rational, finite, proper, ?_⟩
  obtain ⟨derived, z, derives, dual, -, tangent⟩ :=
    differentiate_tangent i "x" none e rational finite proper
  refine ⟨derived, derives, tangent.trans ?_⟩
  have slope : z.snd = 3 / 4 := by
    have quotient : z * (TrivSqZeroExt.inl 3 - (TrivSqZeroExt.inl 1 + ε)) =
        TrivSqZeroExt.inl 1 + ε := by
      rw [← BinaryOp.dual_div (by norm_num), ← dual]
      simp [e, i, Interpretation.dualValue, three, BinaryOp.dual]
    have real : z.fst * (3 - 1) = 1 := by
      simpa only [TrivSqZeroExt.fst_mul, TrivSqZeroExt.fst_sub, TrivSqZeroExt.fst_add,
        TrivSqZeroExt.fst_inl, DualNumber.fst_eps, add_zero]
        using congrArg TrivSqZeroExt.fst quotient
    have dual : z.fst * (0 - (0 + 1)) + z.snd * (3 - (1 + 0)) = 0 + 1 := by
      simpa only [DualNumber.snd_mul, TrivSqZeroExt.fst_sub, TrivSqZeroExt.fst_add,
        TrivSqZeroExt.fst_inl, DualNumber.fst_eps, TrivSqZeroExt.snd_sub, TrivSqZeroExt.snd_add,
        TrivSqZeroExt.snd_inl, DualNumber.snd_eps]
        using congrArg TrivSqZeroExt.snd quotient
    linarith
  rw [slope]

end Expr

end Formula
