import Formula.Arithmetic
import Formula.Proofs.Decimal.Signs

/-!
Operations with a zero or a one. Sums, differences and products with a zero, quotients of a zero, and
products with one and quotients by one do not overflow if the other operand is finite.
-/

set_option autoImplicit false

namespace Formula.Decimal

open Float.Model (UnpackedFloat Format)
open Float.Model.UnpackedFloat

theorem unpack_of_zero {x : Float} (zero : (x == 0.0) = true) :
    ∃ sign, x.toModel.unpack = .zero sign := by
  obtain ⟨negative, decoded⟩ := decode_of_beq_zero zero
  refine ⟨signOf negative, ?_⟩
  rw [unpack_eq, decoded]
  rfl

def unpackedOne : UnpackedFloat := .finite .positive (2 ^ 52) (-52) (by decide)

theorem unpack_of_one {x : Float} (one : (x == 1.0) = true) : x.toModel.unpack = unpackedOne := by
  rw [unpack_eq, eq_one_of_beq one, decode_one]
  rfl

/-- An unpacked number that is packed into a double other than an infinity. The quotient of two zeros,
which is no number, counts as such. -/
inductive IsBounded : UnpackedFloat → Prop
  | notANumber : IsBounded .notANumber
  | zero (sign : Sign) : IsBounded (.zero sign)
  | finite (sign : Sign) {b : Binary} (canonical : b.Canonical) (positive : 0 < b.significand) :
      IsBounded (.finite sign b.significand b.exponent positive)

theorem IsBounded.isInf {u : UnpackedFloat} (bounded : IsBounded u) :
    (Float.ofModel (.pack u)).isInf = false := by
  cases bounded with
  | notANumber => rfl
  | zero sign => exact isInf_pack_zero sign
  | finite sign canonical positive => exact isInf_pack_finite sign canonical positive

/-- What is bounded for both zeros and for all canonical binary fractions is so for finite doubles. -/
theorem isBounded_of_isFinite {f : UnpackedFloat → UnpackedFloat}
    (zeros : ∀ sign, IsBounded (f (.zero sign)))
    (fractions : ∀ (sign : Sign) (b : Binary) (positive : 0 < b.significand), b.Canonical →
      IsBounded (f (.finite sign b.significand b.exponent positive)))
    {x : Float} (finite : x.isFinite = true) : IsBounded (f x.toModel.unpack) := by
  rcases unpack_of_isFinite finite with ⟨s, unpacked⟩ | ⟨s, b, positive, canonical, unpacked⟩
  · rw [unpacked]
    exact zeros s
  · rw [unpacked]
    exact fractions s b positive canonical

theorem scaledBy_one : scaledBy (2 ^ 52) (-52) = 1 := by
  norm_num [scaledBy]

end Formula.Decimal

namespace Formula.BinaryOp

open Decimal
open Float.Model (UnpackedFloat Format)

/-- An operation on unpacked numbers. Powers are left to a library. -/
def unpacked : BinaryOp → UnpackedFloat → UnpackedFloat → UnpackedFloat
  | .add => .add Format.binary64
  | .sub => .sub Format.binary64
  | .mul => .mul Format.binary64
  | .div => .div Format.binary64
  | .pow => fun _ _ => .notANumber

theorem plain_eq_unpacked {op : BinaryOp} (computed : op ≠ .pow) (a b : Float) :
    op.plain a b = .ofModel (.pack (op.unpacked a.toModel.unpack b.toModel.unpack)) := by
  cases op with
  | pow => exact absurd rfl computed
  | _ => rfl

theorem isBounded_zero_left (op : BinaryOp) (s : UnpackedFloat.Sign) {x : Float}
    (finite : x.isFinite = true) : IsBounded (op.unpacked (.zero s) x.toModel.unpack) := by
  refine isBounded_of_isFinite (fun t => ?_) (fun t b positive canonical => ?_) finite
  · cases op with
    | add | sub => cases s <;> cases t <;> exact .zero _
    | mul => exact .zero _
    | div | pow => exact .notANumber
  · cases op with
    | add => exact .finite t canonical positive
    | sub => exact .finite (-t) canonical positive
    | mul | div => exact .zero _
    | pow => exact .notANumber

theorem isBounded_zero_right {op : BinaryOp} (noQuotient : op ≠ .div) (s : UnpackedFloat.Sign)
    {x : Float} (finite : x.isFinite = true) :
    IsBounded (op.unpacked x.toModel.unpack (.zero s)) := by
  refine isBounded_of_isFinite (f := (op.unpacked · (.zero s))) (fun t => ?_)
    (fun t b positive canonical => ?_) finite
  · cases op with
    | add | sub => cases s <;> cases t <;> exact .zero _
    | mul => exact .zero _
    | div => exact absurd rfl noQuotient
    | pow => exact .notANumber
  · cases op with
    | add | sub => exact .finite t canonical positive
    | mul => exact .zero _
    | div => exact absurd rfl noQuotient
    | pow => exact .notANumber

variable {a b : Float}

/-- No sum, difference, product or quotient of a zero and a finite number overflows. -/
theorem isInf_plain_zero_left {op : BinaryOp} (computed : op ≠ .pow) (zero : (a == 0.0) = true)
    (finite : b.isFinite = true) : (op.plain a b).isInf = false := by
  obtain ⟨s, unpacked⟩ := unpack_of_zero zero
  rw [plain_eq_unpacked computed, unpacked]
  exact (isBounded_zero_left op s finite).isInf

theorem isInf_plain_zero_right {op : BinaryOp} (computed : op ≠ .pow) (noQuotient : op ≠ .div)
    (finite : a.isFinite = true) (zero : (b == 0.0) = true) : (op.plain a b).isInf = false := by
  obtain ⟨s, unpacked⟩ := unpack_of_zero zero
  rw [plain_eq_unpacked computed, unpacked]
  exact (isBounded_zero_right noQuotient s finite).isInf

/-- A power is no infinity if it is none of the library's. -/
theorem isInf_power (library : (Float.pow a b).isInf = false) : (power a b).isInf = false := by
  rw [power]
  split
  · next settled =>
      have zero := (Bool.and_eq_true_iff.1 settled).1
      rw [zeroPower]
      split
      · split
        · rcases eq_zero_of_beq zero with rfl | rfl <;> decide
        · decide
      · decide
  · exact library

theorem unpacked_one_mul (t : UnpackedFloat.Sign) {b : Binary} (positive : 0 < b.significand)
    (canonical : b.Canonical) :
    unpacked .mul unpackedOne (.finite t b.significand b.exponent positive) =
      .finite t b.significand b.exponent positive := by
  have near : b.Near (scaledBy (2 ^ 52) (-52) * b.size) := by
    rw [scaledBy_one, one_mul]
    exact Binary.near_size positive
  have product := near.mul_eq .positive t (by decide) positive canonical positive (by omega)
  rw [unpacked, unpackedOne, product]
  cases t <;> rfl

/-- A product with one has the size of the other factor. -/
theorem isInf_one_mul (one : (a == 1.0) = true) (finite : b.isFinite = true) :
    (a * b).isInf = false := by
  have bounded : IsBounded (unpacked .mul a.toModel.unpack b.toModel.unpack) := by
    rw [unpack_of_one one]
    refine isBounded_of_isFinite (fun t => .zero _) (fun t b positive canonical => ?_) finite
    rw [unpacked_one_mul t positive canonical]
    exact .finite _ canonical positive
  exact bounded.isInf

theorem isInf_mul_one (finite : a.isFinite = true) (one : (b == 1.0) = true) :
    (a * b).isInf = false := by
  have bounded : IsBounded (unpacked .mul a.toModel.unpack b.toModel.unpack) := by
    rw [unpack_of_one one]
    refine isBounded_of_isFinite (f := (unpacked .mul · unpackedOne)) (fun t => .zero _)
      (fun t b positive canonical => ?_) finite
    have near : b.Near (b.size * scaledBy (2 ^ 52) (-52)) := by
      rw [scaledBy_one, mul_one]
      exact Binary.near_size positive
    have product := near.mul_eq t .positive positive (by decide) canonical positive (by omega)
    rw [unpacked, unpackedOne, product]
    exact .finite _ canonical positive
  exact bounded.isInf

theorem isInf_div_one (finite : a.isFinite = true) (one : (b == 1.0) = true) :
    (a / b).isInf = false := by
  have bounded : IsBounded (unpacked .div a.toModel.unpack b.toModel.unpack) := by
    rw [unpack_of_one one]
    refine isBounded_of_isFinite (f := (unpacked .div · unpackedOne)) (fun t => .zero _)
      (fun t b positive canonical => ?_) finite
    have near : b.Near (b.size / scaledBy (2 ^ 52) (-52)) := by
      rw [scaledBy_one, div_one]
      exact Binary.near_size positive
    have quotient := near.div_eq t .positive positive (by decide) canonical positive
    rw [unpacked, unpackedOne, quotient]
    exact .finite _ canonical positive
  exact bounded.isInf

theorem one_mul_of_isFinite (finite : b.isFinite = true) : 1.0 * b = b := by
  obtain ⟨fraction, decoded⟩ := decode_of_isFinite finite
  have product : 1.0 * b =
      .ofModel (.pack (unpacked .mul (1.0 : Float).toModel.unpack b.toModel.unpack)) := rfl
  have whole : unpacked .mul unpackedOne fraction.unpacked = fraction.unpacked := by
    by_cases none : fraction.significand = 0
    · rw [Binary.unpacked, dif_pos none]
      cases fraction.negative <;> rfl
    · have positive := Nat.pos_of_ne_zero none
      rw [Binary.unpacked_of_pos positive]
      exact unpacked_one_mul _ positive (canonical_of_decode decoded)
  rw [product, unpack_of_one (by decide), unpack_eq, decoded, Decoded.unpacked, whole]
  exact (eq_toFloat_of_decode decoded).symm

theorem add_zero_beq (finite : a.isFinite = true) (zero : (b == 0.0) = true) :
    (a + b == a) = true := by
  obtain ⟨fraction, decoded⟩ := decode_of_isFinite finite
  by_cases none : fraction.significand = 0
  · have zero' := beq_zero_of_significand decoded none
    rcases eq_zero_of_beq zero with rfl | rfl <;> rcases eq_zero_of_beq zero' with rfl | rfl <;>
      decide
  · obtain ⟨s, unpacked⟩ := unpack_of_zero zero
    have positive := Nat.pos_of_ne_zero none
    have sum : a + b =
        .ofModel (.pack (UnpackedFloat.add Format.binary64 a.toModel.unpack b.toModel.unpack)) := rfl
    have same : a + b = a := by
      rw [sum, unpacked, unpack_eq, decoded, Decoded.unpacked, Binary.unpacked_of_pos positive]
      rw [eq_toFloat_of_decode decoded, Binary.toFloat, Binary.unpacked_of_pos positive]
      rfl
    rw [same]
    exact beq_self_of_decode decoded

end Formula.BinaryOp
