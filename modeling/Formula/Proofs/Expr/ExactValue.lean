import Formula.Expr.Basic
import Formula.Proofs.Decimal.Signs
import Formula.Proofs.Expr.Nodes

/-!
Values in exact arithmetic. Constants stand for the rational numbers that they are, and operations
are those of the rational numbers: there is no quotient by zero, exponents are integers, and zero has
only powers with an exponent above zero. Calls may stand for any function, also for one that is not
defined everywhere.
-/

set_option autoImplicit false

namespace Formula

namespace Decimal

def Binary.value (b : Binary) : ℚ := signed b.negative b.significand * 2 ^ b.exponent

def exactValue? (x : Float) : Option ℚ :=
  match decode x with
  | .finite b => some b.value
  | .nan | .infinite _ => none

theorem exactValue?_of_decode {x : Float} {b : Binary} (decoded : decode x = .finite b) :
    exactValue? x = some b.value := by
  rw [exactValue?, decoded]

theorem exactValue?_zero {x : Float} (zero : (x == 0.0) = true) : exactValue? x = some 0 := by
  obtain ⟨negative, decoded⟩ := decode_of_beq_zero zero
  rw [exactValue?_of_decode decoded, Binary.value]
  cases negative <;> simp [signed]

theorem exactValue?_one {x : Float} (one : (x == 1.0) = true) : exactValue? x = some 1 := by
  rw [eq_one_of_beq one, exactValue?_of_decode decode_one, Binary.value]
  norm_num [signed]

end Decimal

def BinaryOp.exact : BinaryOp → ℚ → ℚ → Option ℚ
  | .add, a, b => some (a + b)
  | .sub, a, b => some (a - b)
  | .mul, a, b => some (a * b)
  | .div, a, b => if b = 0 then none else some (a / b)
  | .pow, a, b => if b.isInt ∧ (a = 0 → 0 < b) then some (a ^ b.num) else none

namespace BinaryOp

variable {a b q : ℚ}

theorem exact_add : exact .add a b = some q ↔ a + b = q := Option.some_inj

theorem exact_sub : exact .sub a b = some q ↔ a - b = q := Option.some_inj

theorem exact_mul : exact .mul a b = some q ↔ a * b = q := Option.some_inj

theorem exact_div : exact .div a b = some q ↔ b ≠ 0 ∧ a / b = q := by
  rw [exact, Option.ite_none_left_eq_some, Option.some_inj]

theorem exact_pow : exact .pow a b = some q ↔ ∃ n : ℤ, b = n ∧ (a = 0 → 0 < n) ∧ a ^ n = q := by
  rw [exact, Option.ite_none_right_eq_some, Option.some_inj]
  constructor
  · rintro ⟨⟨whole, above⟩, rfl⟩
    have integer : b = b.num := (Rat.eq_num_of_isInt whole)
    refine ⟨b.num, integer, fun zero => ?_, rfl⟩
    exact Rat.num_pos.2 (above zero)
  · rintro ⟨n, rfl, above, rfl⟩
    refine ⟨⟨by simp [Rat.isInt], fun zero => Int.cast_pos.2 (above zero)⟩, by rw [Rat.num_intCast]⟩

end BinaryOp

/-- What variables and calls stand for. -/
structure Interpretation where
  ofVariable : String → ℚ
  ofCall : String → List ℚ → Option ℚ

namespace Interpretation

mutual

def value (i : Interpretation) : Expr → Option ℚ
  | .const v => Decimal.exactValue? v
  | .var x => some (i.ofVariable x)
  | .bin op left right => do
    let a ← value i left
    let b ← value i right
    op.exact a b
  | .neg operand => do
    let a ← value i operand
    return -a
  | .call name arguments => do
    let values ← valueAll i arguments
    i.ofCall name values

def valueAll (i : Interpretation) : List Expr → Option (List ℚ)
  | [] => some []
  | e :: rest => do
    let a ← value i e
    let values ← valueAll i rest
    return a :: values

end

section

variable {i : Interpretation} {q : ℚ}

theorem value_of_isZero {z : Expr} (zero : z.isConstant 0.0 = true) : i.value z = some 0 := by
  cases z with
  | const v => exact Decimal.exactValue?_zero zero
  | _ => cases zero

theorem value_of_isOne {u : Expr} (one : u.isConstant 1.0 = true) : i.value u = some 1 := by
  cases u with
  | const v => exact Decimal.exactValue?_one one
  | _ => cases one

theorem value_zero : i.value .zero = some 0 := value_of_isZero rfl

theorem value_one : i.value .one = some 1 := value_of_isOne rfl

theorem value_two : i.value .two = some 2 := by
  rw [Expr.two, value, Decimal.exactValue?_of_decode Decimal.decode_two, Decimal.Binary.value]
  norm_num [Decimal.signed]

theorem value_variable (x : String) : i.value (.var x) = some (i.ofVariable x) := rfl

theorem value_bin {op : BinaryOp} {left right : Expr} :
    i.value (.bin op left right) = some q ↔
      ∃ a, i.value left = some a ∧ ∃ b, i.value right = some b ∧ op.exact a b = some q := by
  rw [value]
  simp only [bind, Option.bind_eq_some_iff]

theorem value_neg {operand : Expr} :
    i.value (.neg operand) = some q ↔ ∃ a, i.value operand = some a ∧ -a = q := by
  rw [value]
  simp only [bind, Option.bind_eq_some_iff, pure, Option.some_inj]

theorem value_call {name : String} {arguments : List Expr} :
    i.value (.call name arguments) = some q ↔
      ∃ values, i.valueAll arguments = some values ∧ i.ofCall name values = some q := by
  rw [value]
  simp only [bind, Option.bind_eq_some_iff]

theorem valueAll_cons {e : Expr} {rest : List Expr} {values : List ℚ} :
    i.valueAll (e :: rest) = some values ↔
      ∃ a, i.value e = some a ∧ ∃ more, i.valueAll rest = some more ∧ a :: more = values := by
  rw [valueAll]
  simp only [bind, Option.bind_eq_some_iff, pure, Option.some_inj]

end

def IsDefinedAt (i : Interpretation) (e : Expr) : Prop := (i.value e).isSome = true

theorem isDefinedAt_iff {i : Interpretation} {e : Expr} :
    i.IsDefinedAt e ↔ ∃ q, i.value e = some q := Option.isSome_iff_exists

theorem isDefinedAt_of_valueAll {i : Interpretation} {es : List Expr} {values : List ℚ}
    (all : i.valueAll es = some values) : ∀ e ∈ es, i.IsDefinedAt e := by
  induction es generalizing values with
  | nil => exact fun _ inside => nomatch inside
  | cons e rest ih =>
      obtain ⟨a, first, more, others, -⟩ := valueAll_cons.1 all
      intro f inside
      rcases List.mem_cons.1 inside with rfl | among
      · exact isDefinedAt_iff.2 ⟨a, first⟩
      · exact ih others f among

theorem everywhere_of_isDefinedAt {i : Interpretation} (e : Expr) (defined : i.IsDefinedAt e) :
    e.Everywhere i.IsDefinedAt := by
  induction e using Expr.induction with
  | const v => exact (Expr.everywhere_const v).2 defined
  | var x => exact (Expr.everywhere_var x).2 defined
  | bin op left right first second =>
      obtain ⟨q, value⟩ := isDefinedAt_iff.1 defined
      obtain ⟨a, leftValue, b, rightValue, -⟩ := value_bin.1 value
      exact (Expr.everywhere_bin op left right).2 ⟨defined,
        first (isDefinedAt_iff.2 ⟨a, leftValue⟩), second (isDefinedAt_iff.2 ⟨b, rightValue⟩)⟩
  | neg operand ih =>
      obtain ⟨q, value⟩ := isDefinedAt_iff.1 defined
      obtain ⟨a, operandValue, -⟩ := value_neg.1 value
      exact (Expr.everywhere_neg operand).2 ⟨defined, ih (isDefinedAt_iff.2 ⟨a, operandValue⟩)⟩
  | call name arguments ih =>
      obtain ⟨q, value⟩ := isDefinedAt_iff.1 defined
      obtain ⟨values, all, -⟩ := value_call.1 value
      exact (Expr.everywhere_call name arguments).2 ⟨defined,
        fun a inside => ih a inside (isDefinedAt_of_valueAll all a inside)⟩

end Interpretation

end Formula
