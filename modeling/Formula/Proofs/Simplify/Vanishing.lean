import Formula.Proofs.Expr.Infinities
import Formula.Proofs.Simplify.Redexes

/-!
Zeros and what is no number in simplified expressions. A product with a zero is simplified to zero, if
the other factor is no infinity and a number, and so is a quotient of zero by all but zero. What is no
number stays in sums, and in products with factors other than zero, whatever the laws make of these.
-/

set_option autoImplicit false

namespace Formula

/-! ### Operations on zeros -/

theorem Decimal.isZero_of_unpack {x : Float} {s : Float.Model.UnpackedFloat.Sign}
    (unpacked : x.toModel.unpack = .zero s) : (x == 0.0) = true := by
  cases s with
  | positive =>
      have same : x = 0.0 := eq_of_unpack unpacked
      rw [same]
      decide
  | negative =>
      have same : x = -0.0 := eq_of_unpack unpacked
      rw [same]
      decide

namespace BinaryOp

open Float.Model (UnpackedFloat Format)

variable {op : BinaryOp} {a b : Float}

theorem isZero_of_unpacked (computed : op ≠ .pow)
    (zero : ∃ s, op.unpacked a.toModel.unpack b.toModel.unpack = .zero s) :
    (op.plain a b == 0.0) = true := by
  obtain ⟨s, zero⟩ := zero
  rw [plain_eq_unpacked computed, zero]
  cases s <;> decide

theorem isZero_zero_mul (zero : (a == 0.0) = true) (finite : b.isFinite = true) :
    (a * b == 0.0) = true := by
  obtain ⟨s, unpacked⟩ := Decimal.unpack_of_zero zero
  have model : b.toModel.unpack.isFinite = true := finite
  apply isZero_of_unpacked (by decide : BinaryOp.mul ≠ .pow)
  rw [unpacked]
  cases other : b.toModel.unpack with
  | notANumber | infinity => rw [other] at model; cases model
  | zero t => exact ⟨s * t, rfl⟩
  | finite t => exact ⟨s * t, rfl⟩

theorem isZero_mul_zero (finite : a.isFinite = true) (zero : (b == 0.0) = true) :
    (a * b == 0.0) = true := by
  obtain ⟨s, unpacked⟩ := Decimal.unpack_of_zero zero
  have model : a.toModel.unpack.isFinite = true := finite
  apply isZero_of_unpacked (by decide : BinaryOp.mul ≠ .pow)
  rw [unpacked]
  cases other : a.toModel.unpack with
  | notANumber | infinity => rw [other] at model; cases model
  | zero t => exact ⟨t * s, rfl⟩
  | finite t => exact ⟨t * s, rfl⟩

theorem isZero_zero_div (zero : (a == 0.0) = true) (divisor : (b == 0.0) = false)
    (number : b.isNaN = false) : (a / b == 0.0) = true := by
  obtain ⟨s, unpacked⟩ := Decimal.unpack_of_zero zero
  have model : b.toModel.unpack.isNaN = false := number
  apply isZero_of_unpacked (by decide : BinaryOp.div ≠ .pow)
  rw [unpacked]
  cases other : b.toModel.unpack with
  | notANumber => rw [other] at model; cases model
  | zero t => exact absurd (Decimal.isZero_of_unpack other) (by rw [divisor]; decide)
  | infinity t => exact ⟨s / t, rfl⟩
  | finite t => exact ⟨s / t, rfl⟩

theorem isNaN_zero_div_zero (zero : (a == 0.0) = true) (zero' : (b == 0.0) = true) :
    (a / b).isNaN = true := by
  rcases Decimal.eq_zero_of_beq zero with rfl | rfl <;>
    rcases Decimal.eq_zero_of_beq zero' with rfl | rfl <;> decide

theorem isZero_add_zero (zero : (a == 0.0) = true) (zero' : (b == 0.0) = true) :
    (a + b == 0.0) = true := by
  rcases Decimal.eq_zero_of_beq zero with rfl | rfl <;>
    rcases Decimal.eq_zero_of_beq zero' with rfl | rfl <;> decide

theorem isZero_sub_zero (zero : (a == 0.0) = true) (zero' : (b == 0.0) = true) :
    (a - b == 0.0) = true := by
  rcases Decimal.eq_zero_of_beq zero with rfl | rfl <;>
    rcases Decimal.eq_zero_of_beq zero' with rfl | rfl <;> decide

theorem isNaN_plain_left (computed : op ≠ .pow) (nan : a.isNaN = true) :
    (op.plain a b).isNaN = true := by
  rw [Decimal.eq_nan_of_isNaN nan, plain_nan_left computed]
  rfl

theorem isNaN_plain_right (computed : op ≠ .pow) (nan : b.isNaN = true) :
    (op.plain a b).isNaN = true := by
  rw [Decimal.eq_nan_of_isNaN nan, plain_nan_right computed]
  rfl

end BinaryOp

namespace Expr

/-! ### Operations on simplified parts -/

section

variable (level : Level) {op : BinaryOp} {A B e f : Expr}

theorem kept_simplify (e : Expr) : (simplify false level e).tree.Everywhere (Stands false) :=
  stands_of_rewrites (rewrites_simplify false level e)

/-- An operation is simplified like the one on its simplified operands. -/
theorem tree_simplify_parts (op : BinaryOp) (e f : Expr) :
    (simplify false level (.bin op e f)).tree =
      (simplify false level
        (.bin op (simplify false level e).tree (simplify false level f).tree)).tree := by
  rw [tree_simplify_bin, tree_simplify_bin, (simplify_of_stands level _ (kept_simplify level e)).1,
    (simplify_of_stands level _ (kept_simplify level f)).1]

/-- An operation on simplified operands is folded, settled by a law, regrouped and simplified again, or
kept. -/
theorem tree_simplify_cases (op : BinaryOp) (keptA : A.Everywhere (Stands false))
    (keptB : B.Everywhere (Stands false)) :
    (∃ a b, A = .const a ∧ B = .const b ∧
        (simplify false level (.bin op A B)).tree = .const (op.plain a b)) ∨
      (∃ e, Settles op A B e ∧ (simplify false level (.bin op A B)).tree = e) ∨
      (∃ e, Regroups op A B e ∧ productCount e < productCount (.bin op A B) ∧
        (simplify false level (.bin op A B)).tree = (simplify false level e).tree) ∨
      (simplify false level (.bin op A B)).tree = .bin op A B := by
  rw [tree_simplify_bin, (simplify_of_stands level A keptA).1, (simplify_of_stands level B keptB).1]
  cases next : nextBinary false op A B with
  | settle e =>
      rcases settles_of_nextBinary next with ⟨v, folded, rfl⟩ | settles
      · obtain ⟨a, b, rfl, rfl, value⟩ := foldBinary_eq_value folded
        cases value
        exact .inl ⟨a, b, rfl, rfl, rfl⟩
      · exact .inr (.inl ⟨e, settles, rfl⟩)
  | again e =>
      exact .inr (.inr (.inl ⟨e, nextBinary_again_cases next, nextBinary_again_productCount next,
        rfl⟩))
  | keep => exact .inr (.inr (.inr rfl))

/-- No law has a simplified operation for its left side. -/
theorem not_law_of_kept (kept : e.Everywhere (Stands false)) : ¬ Law e f :=
  fun law => (stands_plain_iff e).1 kept.root (.law law)

/-! ### What is no number -/

/-- A node that is no constant, or one that is a number. -/
def IsNumber : Expr → Prop
  | .const value => value.isNaN = false
  | _ => True

/-- There is a constant in an expression that is no number. -/
def Spoiled (e : Expr) : Prop := ¬ e.Everywhere IsNumber

theorem spoiled_const (value : Float) : Spoiled (.const value) ↔ value.isNaN = true := by
  rw [Spoiled, everywhere_const, IsNumber, Bool.not_eq_false]

/-- One of the nodes is then such a constant. -/
theorem spoiled_iff (e : Expr) :
    Spoiled e ↔ ∃ value, .const value ∈ e.breadthFirst ∧ value.isNaN = true := by
  rw [Spoiled, everywhere_iff_forall_node]
  constructor
  · intro fails
    obtain ⟨n, inside, spoilt⟩ := by simpa only [not_forall, exists_prop] using fails
    cases n with
    | const value => exact ⟨value, inside, by rwa [IsNumber, Bool.not_eq_false] at spoilt⟩
    | _ => exact absurd trivial spoilt
  · rintro ⟨value, inside, nan⟩ numbers
    cases nan.symm.trans (numbers _ inside)

theorem not_spoiled_var (x : String) : ¬ Spoiled (.var x) := by
  rw [Spoiled, everywhere_var, not_not]
  trivial

theorem spoiled_bin (op : BinaryOp) (left right : Expr) :
    Spoiled (.bin op left right) ↔ Spoiled left ∨ Spoiled right := by
  simp only [Spoiled, everywhere_bin, IsNumber, true_and, not_and_or]

theorem spoiled_neg (a : Expr) : Spoiled (.neg a) ↔ Spoiled a := by
  simp only [Spoiled, everywhere_neg, IsNumber, true_and]

theorem isConstant_cases {value : Float} (constant : e.isConstant value = true) :
    ∃ c, e = .const c ∧ (c == value) = true := by
  cases e with
  | const c => exact ⟨c, rfl, constant⟩
  | _ => cases constant

theorem not_spoiled_zero (zero : e.isConstant 0.0 = true) : ¬ Spoiled e := by
  obtain ⟨c, rfl, zero⟩ := isConstant_cases zero
  rw [spoiled_const]
  rcases Decimal.eq_zero_of_beq zero with rfl | rfl <;> decide

theorem not_spoiled_one (one : e.isConstant 1.0 = true) : ¬ Spoiled e := by
  obtain ⟨c, rfl, one⟩ := isConstant_cases one
  rw [spoiled_const, Decimal.eq_one_of_beq one]
  decide

theorem not_spoiled_reciprocal (x : String) (one : e.isConstant 1.0 = true) :
    ¬ Spoiled (.bin .div e (.var x)) := by
  rw [spoiled_bin, not_or]
  exact ⟨not_spoiled_one one, not_spoiled_var x⟩

theorem PowerOf.spoiled {x : String} {f a : Expr} (power : PowerOf x f a) (spoiled : Spoiled f) :
    Spoiled a := by
  cases power with
  | itself => exact absurd spoiled (not_spoiled_var x)
  | power => exact ((spoiled_bin _ _ _).1 spoiled).resolve_left (not_spoiled_var x)

theorem PowerOf.kept {x : String} {f a : Expr} (power : PowerOf x f a)
    (kept : f.Everywhere (Stands false)) : a.Everywhere (Stands false) := by
  cases power with
  | itself => exact (everywhere_const _).2 trivial
  | power => exact kept.right

theorem spoiled_plain {a b : Float} (computed : op ≠ .pow)
    (spoiled : Spoiled (.const a) ∨ Spoiled (.const b)) : Spoiled (.const (op.plain a b)) := by
  rw [spoiled_const, spoiled_const] at spoiled
  rw [spoiled_const]
  rcases spoiled with nan | nan
  · exact BinaryOp.isNaN_plain_left computed nan
  · exact BinaryOp.isNaN_plain_right computed nan

theorem spoiled_sum (additive : op = .add ∨ op = .sub) (keptA : A.Everywhere (Stands false))
    (keptB : B.Everywhere (Stands false)) (spoiled : Spoiled A ∨ Spoiled B) :
    Spoiled (simplify false level (.bin op A B)).tree := by
  rcases tree_simplify_cases level op keptA keptB with
    ⟨a, b, rfl, rfl, folded⟩ | ⟨e, settles, same⟩ | ⟨e, regroups, -, -⟩ | kept
  · rw [folded]
    exact spoiled_plain (by rintro rfl; rcases additive with h | h <;> cases h) spoiled
  · rw [same]
    cases settles with
    | zeroAdd zero => exact spoiled.resolve_left (not_spoiled_zero zero)
    | addZero _ zero | subZero _ zero => exact spoiled.resolve_right (not_spoiled_zero zero)
    | _ => rcases additive with h | h <;> cases h
  · rcases additive with rfl | rfl <;> cases regroups
  · rw [kept]
    exact (spoiled_bin _ _ _).2 spoiled

theorem spoiled_power (x : String) (keptB : B.Everywhere (Stands false)) (spoiled : Spoiled B) :
    Spoiled (simplify false level (.bin .pow (.var x) B)).tree := by
  have keptA : (Expr.var x).Everywhere (Stands false) := (everywhere_var x).2 trivial
  rcases tree_simplify_cases level .pow keptA keptB with
    ⟨a, b, constant, -, -⟩ | ⟨e, settles, same⟩ | ⟨e, regroups, -, -⟩ | kept
  · cases constant
  · rw [same]
    cases settles with
    | powOne _ one => exact absurd spoiled (not_spoiled_one one)
    | powZero _ zero => exact absurd spoiled (not_spoiled_zero zero)
    | onePow one => cases one
    | zeroPow zero => cases zero
  · cases regroups
  · rw [kept]
    exact (spoiled_bin _ _ _).2 (.inr spoiled)

theorem spoiled_quotient (keptA : A.Everywhere (Stands false)) (keptB : B.Everywhere (Stands false))
    (spoiled : Spoiled A) : Spoiled (simplify false level (.bin .div A B)).tree := by
  rcases tree_simplify_cases level .div keptA keptB with
    ⟨a, b, rfl, rfl, folded⟩ | ⟨e, settles, same⟩ | ⟨e, regroups, -, same⟩ | kept
  · rw [folded]
    exact spoiled_plain (by decide) (.inl spoiled)
  · rw [same]
    cases settles with
    | zeroDiv zero => exact absurd spoiled (not_spoiled_zero zero)
    | divOne => exact spoiled
    | mulDiv _ x => exact ((spoiled_bin _ _ _).1 spoiled).resolve_right (not_spoiled_var x)
    | mulDivLeft x => exact ((spoiled_bin _ _ _).1 spoiled).resolve_left (not_spoiled_var x)
  · rw [same]
    cases regroups with
    | @quotient x _ _ a b first second =>
        rw [tree_simplify_parts, simplify_var]
        apply spoiled_power level x (kept_simplify level _)
        exact spoiled_sum level (.inr rfl) (first.kept keptA) (second.kept keptB)
          (.inl (first.spoiled spoiled))
  · rw [kept]
    exact (spoiled_bin _ _ _).2 (.inl spoiled)

/-- The power that a rule puts next to the dividend `c`: its simplification is never zero, and it is no
number if the exponent is none. -/
theorem simplify_lowered (x : String) {a : Expr} (kept : a.Everywhere (Stands false)) :
    let power := (simplify false level (.bin .pow (.var x) (.bin .sub a .one))).tree
    power.isConstant 0.0 = false ∧ (Spoiled a → Spoiled power) := by
  have keptOne : Expr.one.Everywhere (Stands false) := (everywhere_const _).2 trivial
  have keptX : (Expr.var x).Everywhere (Stands false) := (everywhere_var x).2 trivial
  have exponent := kept_simplify level (.bin .sub a .one)
  intro power
  refine ⟨?_, fun spoiled => ?_⟩
  · simp only [power]
    rw [tree_simplify_parts, simplify_var]
    rcases tree_simplify_cases level .pow keptX exponent with
      ⟨b, c, constant, -, -⟩ | ⟨e, settles, same⟩ | ⟨e, regroups, -, -⟩ | kept
    · cases constant
    · rw [same]
      cases settles with
      | powOne => rfl
      | powZero => decide
      | onePow one => cases one
      | zeroPow zero => cases zero
    · cases regroups
    · rw [kept]
      rfl
  · simp only [power]
    rw [tree_simplify_parts, simplify_var]
    exact spoiled_power level x exponent
      (spoiled_sum level (.inr rfl) kept keptOne (.inl spoiled))

/-- The factors that a rule makes of a power and a quotient: one is no number, if this is so of the power
or the quotient, and the other one is not zero. -/
theorem spoiled_factors {x : String} {a c : Expr} (power : PowerOf x A a)
    (keptA : A.Everywhere (Stands false))
    (keptB : (Expr.bin .div c (.var x)).Everywhere (Stands false))
    (spoiled : Spoiled A ∨ Spoiled (.bin .div c (.var x))) :
    let lowered := (simplify false level (.bin .pow (.var x) (.bin .sub a .one))).tree
    Spoiled c ∧ lowered.isConstant 0.0 = false ∨ Spoiled lowered ∧ c.isConstant 0.0 = false := by
  obtain ⟨notZero, spoils⟩ := simplify_lowered level x (power.kept keptA)
  rcases spoiled with spoiled | spoiled
  · have dividend : c.isConstant 0.0 = false := by
      rw [← Bool.not_eq_true]
      exact fun zero => not_law_of_kept keptB (.settles (.zeroDiv zero (.var x)))
    exact .inr ⟨spoils (power.spoiled spoiled), dividend⟩
  · exact .inl ⟨((spoiled_bin _ _ _).1 spoiled).resolve_right (not_spoiled_var x), notZero⟩

/-- A product is no number if one of the factors is none and the other one is not zero. -/
theorem spoiled_product (keptA : A.Everywhere (Stands false)) (keptB : B.Everywhere (Stands false))
    (spoiled : Spoiled A ∧ B.isConstant 0.0 = false ∨ Spoiled B ∧ A.isConstant 0.0 = false) :
    Spoiled (simplify false level (.bin .mul A B)).tree := by
  -- What a rule over powers builds is a product again, with fewer products in it.
  induction count : productCount (.bin .mul A B) using Nat.strongRecOn generalizing A B with
  | ind n ih =>
      have one : Spoiled A ∨ Spoiled B := spoiled.imp And.left And.left
      have lowered {x : String} {f a c : Expr} (power : PowerOf x f a)
          (keptF : f.Everywhere (Stands false))
          (keptQ : (Expr.bin .div c (.var x)).Everywhere (Stands false))
          (spoiled : Spoiled f ∨ Spoiled (.bin .div c (.var x)))
          (fewer : productCount (.bin .mul c (.bin .pow (.var x) (.bin .sub a .one))) < n) :
          Spoiled (simplify false level
            (.bin .mul c (.bin .pow (.var x) (.bin .sub a .one)))).tree := by
        have factors := spoiled_factors level power keptF keptQ spoiled
        have next := simplify_productCount false level (.bin .pow (.var x) (.bin .sub a .one))
        rw [tree_simplify_parts, (simplify_of_stands level c keptQ.left).1]
        refine ih _ ?_ keptQ.left (kept_simplify level _) factors rfl
        simp only [productCount] at fewer next ⊢
        omega
      rcases tree_simplify_cases level .mul keptA keptB with
        ⟨a, b, rfl, rfl, folded⟩ | ⟨e, settles, same⟩ | ⟨e, regroups, fewer, same⟩ | kept
      · rw [folded]
        exact spoiled_plain (by decide) one
      · rw [same]
        cases settles with
        | zeroMul zero =>
            rcases spoiled with ⟨spoiled, -⟩ | ⟨-, notZero⟩
            · exact absurd spoiled (not_spoiled_zero zero)
            · cases notZero.symm.trans zero
        | mulZero _ zero =>
            rcases spoiled with ⟨-, notZero⟩ | ⟨spoiled, -⟩
            · cases notZero.symm.trans zero
            · exact absurd spoiled (not_spoiled_zero zero)
        | oneMul isOne => exact one.resolve_left (not_spoiled_one isOne)
        | mulOne _ isOne => exact one.resolve_right (not_spoiled_one isOne)
      · rw [same]
        rw [count] at fewer
        cases regroups with
        | timesQuotient c power => exact lowered power keptA keptB one fewer
        | quotientTimes c power => exact lowered power keptB keptA one.symm fewer
        | timesReciprocal x value c isOne =>
            exact spoiled_quotient level keptA keptB.right
              (one.resolve_right (not_spoiled_reciprocal x isOne))
        | reciprocalTimes x value c isOne =>
            exact spoiled_quotient level keptB keptA.right
              (one.resolve_left (not_spoiled_reciprocal x isOne))
        | @product x _ _ a b first second =>
            rw [tree_simplify_parts, simplify_var]
            apply spoiled_power level x (kept_simplify level _)
            exact spoiled_sum level (.inl rfl) (first.kept keptA) (second.kept keptB)
              (one.imp first.spoiled second.spoiled)
      · rw [kept]
        exact (spoiled_bin _ _ _).2 one

end

/-! ### Zero or no number -/

section

variable (level : Level)

/-- An expression is simplified to a zero. -/
def Vanishes (e : Expr) : Prop := (simplify false level e).tree.isConstant 0.0 = true

/-- An expression is simplified to one with a constant that is no number. -/
def Spoils (e : Expr) : Prop := Spoiled (simplify false level e).tree

/-- An expression is simplified to a finite constant, if to a constant at all. -/
def Harmless (e : Expr) : Prop := ∀ c, (simplify false level e).tree = .const c → c.isFinite = true

/-- An expression is not simplified to a constant. -/
def Unfolded (e : Expr) : Prop := ∀ c, (simplify false level e).tree ≠ .const c

/-- An expression is simplified to zero under a condition, and spoilt without it. -/
structure Hinges (good : Prop) (e : Expr) : Prop where
  vanishes : good → Vanishes level e
  spoils : ¬ good → Spoils level e

/-- A factor that keeps a zero where the condition holds, and what is no number where it fails. -/
structure IsFactor (good : Prop) (e : Expr) : Prop where
  harmless : Harmless level e
  notZero : ¬ good → ¬ Vanishes level e

variable {level} {op : BinaryOp} {e f : Expr} {good good' : Prop}

theorem Vanishes.not_spoils (vanishes : Vanishes level e) : ¬ Spoils level e :=
  not_spoiled_zero vanishes

theorem Vanishes.constant (vanishes : Vanishes level e) :
    ∃ c, (simplify false level e).tree = .const c ∧ (c == 0.0) = true :=
  isConstant_cases vanishes

theorem vanishes_of_constant {c : Float} (constant : (simplify false level e).tree = .const c)
    (zero : (c == 0.0) = true) : Vanishes level e := by
  rw [Vanishes, constant]
  exact zero

theorem Unfolded.harmless (unfolded : Unfolded level e) : Harmless level e :=
  fun c constant => absurd constant (unfolded c)

theorem Unfolded.not_vanishes (unfolded : Unfolded level e) : ¬ Vanishes level e := by
  intro vanishes
  obtain ⟨c, constant, -⟩ := vanishes.constant
  exact unfolded c constant

theorem Unfolded.isFactor (unfolded : Unfolded level e) : IsFactor level good e :=
  ⟨unfolded.harmless, fun _ => unfolded.not_vanishes⟩

theorem tree_simplify_constants {a b : Float} (first : (simplify false level e).tree = .const a)
    (second : (simplify false level f).tree = .const b) :
    (simplify false level (.bin op e f)).tree = .const (op.plain a b) := by
  rw [tree_simplify_bin, first, second]
  rfl

/-- What a law settles with zero is simplified to zero, if it is not folded before. -/
theorem vanishes_of_identity (unfolded : Unfolded level e ∨ Unfolded level f)
    (identity : identity? op (simplify false level e).tree (simplify false level f).tree =
      some .zero) : Vanishes level (.bin op e f) := by
  have noFold : foldBinary false op (simplify false level e).tree (simplify false level f).tree =
      .none := by
    unfold foldBinary
    split
    · next a b first second => exact unfolded.elim (absurd first <| · a) (absurd second <| · b)
    · rfl
  rw [Vanishes, tree_simplify_bin]
  simp only [nextBinary, noFold, reduce, identity]
  decide

theorem vanishes_zero : Vanishes level .zero := by
  rw [Vanishes, Expr.zero, simplify_const]
  decide

theorem Vanishes.add (first : Vanishes level e) (second : Vanishes level f) :
    Vanishes level (.bin .add e f) := by
  obtain ⟨a, constant, zero⟩ := first.constant
  obtain ⟨b, constant', zero'⟩ := second.constant
  exact vanishes_of_constant (tree_simplify_constants constant constant')
    (BinaryOp.isZero_add_zero zero zero')

theorem Vanishes.sub (first : Vanishes level e) (second : Vanishes level f) :
    Vanishes level (.bin .sub e f) := by
  obtain ⟨a, constant, zero⟩ := first.constant
  obtain ⟨b, constant', zero'⟩ := second.constant
  exact vanishes_of_constant (tree_simplify_constants constant constant')
    (BinaryOp.isZero_sub_zero zero zero')

/-- A zero on the left stays zero: with a constant by the operation, else by a law. -/
theorem Vanishes.left (vanishes : Vanishes level e)
    (constants : ∀ a b, (a == 0.0) = true → (simplify false level f).tree = .const b →
      (op.plain a b == 0.0) = true)
    (absorbs : identity? op (simplify false level e).tree (simplify false level f).tree =
      some .zero) : Vanishes level (.bin op e f) := by
  by_cases folded : ∃ b, (simplify false level f).tree = .const b
  · obtain ⟨a, constant, zero⟩ := vanishes.constant
    obtain ⟨b, other⟩ := folded
    exact vanishes_of_constant (tree_simplify_constants constant other) (constants a b zero other)
  · exact vanishes_of_identity (.inr (not_exists.1 folded)) absorbs

theorem Vanishes.mul_left (vanishes : Vanishes level e) (harmless : Harmless level f) :
    Vanishes level (.bin .mul e f) := by
  refine vanishes.left (fun _ b zero other => BinaryOp.isZero_zero_mul zero (harmless b other)) ?_
  rw [Vanishes] at vanishes
  simp only [identity?, vanishes, Bool.true_or, ↓reduceIte]

theorem Vanishes.mul_unfolded (vanishes : Vanishes level f) (unfolded : Unfolded level e) :
    Vanishes level (.bin .mul e f) := by
  refine vanishes_of_identity (.inl unfolded) ?_
  rw [Vanishes] at vanishes
  simp only [identity?, vanishes, Bool.or_true, ↓reduceIte]

theorem Vanishes.mul_right (vanishes : Vanishes level f) (harmless : Harmless level e) :
    Vanishes level (.bin .mul e f) := by
  by_cases folded : ∃ a, (simplify false level e).tree = .const a
  · obtain ⟨a, other⟩ := folded
    obtain ⟨b, constant, zero⟩ := vanishes.constant
    exact vanishes_of_constant (tree_simplify_constants other constant)
      (BinaryOp.isZero_mul_zero (harmless a other) zero)
  · exact vanishes.mul_unfolded (not_exists.1 folded)

theorem Vanishes.div (vanishes : Vanishes level e)
    (divisor : ∀ c, (simplify false level f).tree = .const c →
      (c == 0.0) = false ∧ c.isNaN = false) : Vanishes level (.bin .div e f) := by
  refine vanishes.left (fun _ b zero other =>
    BinaryOp.isZero_zero_div zero (divisor b other).1 (divisor b other).2) ?_
  rw [Vanishes] at vanishes
  simp only [identity?, vanishes, ↓reduceIte]

theorem Vanishes.neg (vanishes : Vanishes level e) : Vanishes level (.neg e) := by
  obtain ⟨a, constant, zero⟩ := vanishes.constant
  rw [Vanishes, tree_simplify_neg, constant]
  rcases Decimal.eq_zero_of_beq zero with rfl | rfl <;> decide

theorem Spoils.neg (spoils : Spoils level e) : Spoils level (.neg e) := by
  rw [Spoils, tree_simplify_neg]
  rw [Spoils] at spoils
  cases gone : negated? (simplify false level e).tree with
  | none => exact (spoiled_neg _).2 spoils
  | some e' =>
      rcases negated?_cases gone with ⟨value, constant, rfl⟩ | twice
      · rw [constant, spoiled_const] at spoils
        rw [Decimal.eq_nan_of_isNaN spoils]
        exact (spoiled_const _).2 rfl
      · rwa [twice, spoiled_neg] at spoils

theorem Spoils.sum (additive : op = .add ∨ op = .sub)
    (spoils : Spoils level e ∨ Spoils level f) : Spoils level (.bin op e f) := by
  rw [Spoils, tree_simplify_parts]
  exact spoiled_sum level additive (kept_simplify level e) (kept_simplify level f) spoils

theorem Spoils.mul_left (spoils : Spoils level e) (factor : ¬ Vanishes level f) :
    Spoils level (.bin .mul e f) := by
  rw [Spoils, tree_simplify_parts]
  exact spoiled_product level (kept_simplify level e) (kept_simplify level f)
    (.inl ⟨spoils, Bool.eq_false_iff.2 factor⟩)

theorem Spoils.mul_right (spoils : Spoils level f) (factor : ¬ Vanishes level e) :
    Spoils level (.bin .mul e f) := by
  rw [Spoils, tree_simplify_parts]
  exact spoiled_product level (kept_simplify level e) (kept_simplify level f)
    (.inr ⟨spoils, Bool.eq_false_iff.2 factor⟩)

theorem Spoils.div (spoils : Spoils level e) (f : Expr) : Spoils level (.bin .div e f) := by
  rw [Spoils, tree_simplify_parts]
  exact spoiled_quotient level (kept_simplify level e) (kept_simplify level f) spoils

/-! ### Factors -/

theorem Unfolded.call (name : String) (unfolded : Unfolded level e) :
    Unfolded level (.call name [e]) := by
  intro c
  rw [tree_simplify_call, trees_simplifyAll, List.map_cons, List.map_nil, foldedCall?]
  split
  · next folded =>
      obtain ⟨-, values, -, constants, -, -⟩ := foldCall_eq_value folded
      obtain ⟨d, -, same⟩ := List.mem_map.1 (constants ▸ List.mem_cons_self)
      exact absurd same.symm (unfolded d)
  · exact fun same => by cases same

theorem Unfolded.neg (unfolded : Unfolded level e) : Unfolded level (.neg e) := by
  intro c folded
  rw [tree_simplify_neg] at folded
  cases gone : negated? (simplify false level e).tree with
  | none =>
      rw [gone] at folded
      cases folded
  | some e' =>
      rcases negated?_cases gone with ⟨value, constant, -⟩ | twice
      · exact unfolded value constant
      · rw [gone] at folded
        cases folded
        have kept := (kept_simplify level e).root
        rw [twice, stands_plain_iff] at kept
        exact kept (.negation c)

theorem Unfolded.one_sub (unfolded : Unfolded level e) : Unfolded level (.bin .sub .one e) := by
  intro c folded
  have keptOne : Expr.one.Everywhere (Stands false) := (everywhere_const _).2 trivial
  rw [tree_simplify_parts, Expr.one, simplify_const] at folded
  rcases tree_simplify_cases level .sub keptOne (kept_simplify level e) with
    ⟨a, b, -, constant, -⟩ | ⟨e', settles, same⟩ | ⟨e', regroups, -, -⟩ | same
  · exact unfolded b constant
  · cases settles with
    | subZero _ zero =>
        obtain ⟨b, constant, -⟩ := isConstant_cases zero
        exact unfolded b constant
  · cases regroups
  · cases same.symm.trans folded

theorem IsFactor.neg (factor : IsFactor level good e) :
    IsFactor level good (.neg e) := by
  by_cases constant : ∃ c, (simplify false level e).tree = .const c
  · obtain ⟨c, constant⟩ := constant
    have negated : (simplify false level (.neg e)).tree = .const (-c) := by
      rw [tree_simplify_neg, constant]
      rfl
    refine ⟨fun d same => ?_, fun fails vanishes => factor.notZero fails ?_⟩
    · cases negated.symm.trans same
      exact isFinite_neg (factor.harmless c constant)
    · rw [Vanishes, negated] at vanishes
      rw [Vanishes, constant, ← Decimal.neg_twice c]
      rcases Decimal.eq_zero_of_beq vanishes with zero | zero <;>
        (rw [zero]; decide)
  · exact (Unfolded.neg fun c same => constant ⟨c, same⟩).isFactor

/-! ### Conditions put together -/

namespace Hinges

theorem zero (holds : good) : Hinges level good .zero :=
  ⟨fun _ => vanishes_zero, fun fails => absurd holds fails⟩

theorem add (first : Hinges level good e) (second : Hinges level good' f) :
    Hinges level (good ∧ good') (.bin .add e f) := by
  refine ⟨fun ⟨holds, holds'⟩ => (first.vanishes holds).add (second.vanishes holds'), fun fails => ?_⟩
  exact .sum (.inl rfl) ((not_and_or.1 fails).imp first.spoils second.spoils)

theorem sub (first : Hinges level good e) (second : Hinges level good' f) :
    Hinges level (good ∧ good') (.bin .sub e f) := by
  refine ⟨fun ⟨holds, holds'⟩ => (first.vanishes holds).sub (second.vanishes holds'), fun fails => ?_⟩
  exact .sum (.inr rfl) ((not_and_or.1 fails).imp first.spoils second.spoils)

theorem mul_left (hinges : Hinges level good e) (factor : IsFactor level good f) :
    Hinges level good (.bin .mul e f) :=
  ⟨fun holds => (hinges.vanishes holds).mul_left factor.harmless,
    fun fails => (hinges.spoils fails).mul_left (factor.notZero fails)⟩

theorem mul_right (hinges : Hinges level good f) (factor : IsFactor level good e) :
    Hinges level good (.bin .mul e f) :=
  ⟨fun holds => (hinges.vanishes holds).mul_right factor.harmless,
    fun fails => (hinges.spoils fails).mul_right (factor.notZero fails)⟩

theorem div (hinges : Hinges level good e)
    (divisor : ∀ c, (simplify false level f).tree = .const c →
      (c == 0.0) = false ∧ c.isNaN = false) : Hinges level good (.bin .div e f) :=
  ⟨fun holds => (hinges.vanishes holds).div divisor, fun fails => (hinges.spoils fails).div f⟩

theorem neg (hinges : Hinges level good e) : Hinges level good (.neg e) :=
  ⟨fun holds => (hinges.vanishes holds).neg, fun fails => (hinges.spoils fails).neg⟩

/-- Where nothing is known of the condition, one of the two is the case. -/
theorem either (hinges : Hinges level good e) : Vanishes level e ∨ Spoils level e := by
  by_cases holds : good
  · exact .inl (hinges.vanishes holds)
  · exact .inr (hinges.spoils holds)

end Hinges

/-- A product is zero or no number if the first factor is. -/
theorem either_mul (either : Vanishes level e ∨ Spoils level e) (harmless : Harmless level f) :
    Vanishes level (.bin .mul e f) ∨ Spoils level (.bin .mul e f) := by
  rcases either with vanishes | spoils
  · exact .inl (vanishes.mul_left harmless)
  by_cases zero : Vanishes level f
  · by_cases folded : ∃ a, (simplify false level e).tree = .const a
    · obtain ⟨a, constant⟩ := folded
      obtain ⟨b, constant', -⟩ := zero.constant
      right
      rw [Spoils, tree_simplify_constants constant constant']
      rw [Spoils, constant] at spoils
      exact spoiled_plain (by decide) (.inl spoils)
    · exact .inl (zero.mul_unfolded (not_exists.1 folded))
  · exact .inr (spoils.mul_left zero)

theorem either_sub (first : Vanishes level e ∨ Spoils level e)
    (second : Vanishes level f ∨ Spoils level f) :
    Vanishes level (.bin .sub e f) ∨ Spoils level (.bin .sub e f) := by
  rcases first with vanishes | spoils
  · rcases second with vanishes' | spoils'
    · exact .inl (vanishes.sub vanishes')
    · exact .inr (.sum (.inr rfl) (.inr spoils'))
  · exact .inr (.sum (.inr rfl) (.inl spoils))

/-- A quotient of a zero, or of what is no number, by zero is no number. -/
theorem spoils_div_zero {c : Float} (either : Vanishes level e ∨ Spoils level e)
    (constant : (simplify false level f).tree = .const c) (zero : (c == 0.0) = true) :
    Spoils level (.bin .div e f) := by
  rcases either with vanishes | spoils
  · obtain ⟨a, constant', zero'⟩ := vanishes.constant
    rw [Spoils, tree_simplify_constants constant' constant]
    exact (spoiled_const _).2 (BinaryOp.isNaN_zero_div_zero zero' zero)
  · exact spoils.div f

end

end Expr

end Formula
