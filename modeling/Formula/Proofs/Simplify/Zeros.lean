import Formula.Expr.Equality
import Formula.Proofs.Decimal.Units
import Formula.Proofs.Expr.Evaluation
import Formula.Proofs.Simplify.Load

/-!
Negative zeros. Constants are written without the sign of a zero, so what is read back has zeros in
place of negative zeros. The two expressions are equal, and no rule tells them apart.
-/

set_option autoImplicit false

namespace Formula.Expr

open Decimal (isBelowZero positiveZero)

/-! ### Equal expressions -/

theorem sign_of_sameConstant {a b : Float} (equal : sameConstant a b = true) :
    isBelowZero a = isBelowZero b := by
  rw [sameConstant, Bool.or_eq_true, Bool.and_eq_true] at equal
  rcases equal with equal | ⟨first, second⟩
  · exact Decimal.isBelowZero_of_beq equal
  · rw [Decimal.isBelowZero_of_isNaN first, Decimal.isBelowZero_of_isNaN second]

theorem loadAll_of_sameAll (es fs : List Expr)
    (each : ∀ e ∈ es, ∀ f, same e f = true → load e = load f) (equal : sameAll es fs = true) :
    loadAll es = loadAll fs := by
  induction es generalizing fs with
  | nil =>
      cases fs with
      | nil => rfl
      | cons f fs => simp [sameAll] at equal
  | cons e es ih =>
      cases fs with
      | nil => simp [sameAll] at equal
      | cons f fs =>
          rw [sameAll, Bool.and_eq_true] at equal
          rw [loadAll, loadAll, each e List.mem_cons_self f equal.1,
            ih fs (fun a inside => each a (List.mem_cons_of_mem e inside)) equal.2]

theorem load_of_same (e f : Expr) (equal : same e f = true) : load e = load f := by
  induction e using Expr.induction generalizing f with
  | const a =>
      cases f with
      | const b =>
          rw [same] at equal
          rw [load, load, constantLoad, constantLoad, sign_of_sameConstant equal]
      | _ => simp [same] at equal
  | var m =>
      cases f with
      | var n => rfl
      | _ => simp [same] at equal
  | bin op left right first second =>
      cases f with
      | bin op' left' right' =>
          rw [same, Bool.and_eq_true, beq_iff_eq, Bool.or_eq_true, Bool.and_eq_true,
            Bool.and_eq_true, Bool.and_eq_true] at equal
          obtain ⟨rfl, ⟨straight, straight'⟩ | ⟨commutes, crossed, crossed'⟩⟩ := equal
          · rw [load, load, first left' straight, second right' straight']
          · have plain : op ≠ .pow := by
              rintro rfl
              cases commutes
            rw [load_swap plain left' right', load, load, first right' crossed,
              second left' crossed']
      | _ => simp [same] at equal
  | neg a ih =>
      cases f with
      | neg b =>
          rw [same] at equal
          rw [load, load, ih b equal]
      | _ => simp [same] at equal
  | call name arguments ih =>
      cases f with
      | call name' arguments' =>
          rw [same, Bool.and_eq_true] at equal
          rw [load, load, loadAll_of_sameAll arguments arguments' ih equal.2]
      | _ => simp [same] at equal

/-! ### Zeros without a sign -/

mutual

/-- The expression with zeros in place of negative zeros. -/
def positiveZeros : Expr → Expr
  | .const value => .const (positiveZero value)
  | .var name => .var name
  | .bin op left right => .bin op (positiveZeros left) (positiveZeros right)
  | .neg operand => .neg (positiveZeros operand)
  | .call name arguments => .call name (positiveZerosAll arguments)

def positiveZerosAll : List Expr → List Expr
  | [] => []
  | e :: rest => positiveZeros e :: positiveZerosAll rest

end

attribute [simp] positiveZeros positiveZerosAll

theorem positiveZerosAll_eq_map (es : List Expr) :
    positiveZerosAll es = es.map positiveZeros := by
  induction es with
  | nil => rfl
  | cons e rest ih => rw [positiveZerosAll, ih, List.map_cons]

theorem sameConstant_positiveZero {value : Float} {b : Decimal.Binary}
    (decoded : Decimal.decode value = .finite b) :
    sameConstant (positiveZero value) value = true := by
  rw [sameConstant, Bool.or_eq_true]
  left
  rw [positiveZero]
  split
  · next zero =>
      rcases Decimal.eq_zero_of_beq zero with rfl | rfl
      · decide
      · decide
  · exact Decimal.beq_self_of_decode decoded

theorem sameAll_map (f : Expr → Expr) (es : List Expr) (each : ∀ e ∈ es, same (f e) e = true) :
    sameAll (es.map f) es = true := by
  induction es with
  | nil => rfl
  | cons e rest ih =>
      rw [List.map_cons, sameAll, each e List.mem_cons_self, Bool.true_and]
      apply ih
      intro a inside
      exact each a (List.mem_cons_of_mem e inside)

theorem same_positiveZeros (e : Expr) (finite : e.Everywhere HasFiniteValue) :
    same (positiveZeros e) e = true := by
  induction e using Expr.induction with
  | const value =>
      obtain ⟨b, decoded⟩ := finite.root
      rw [positiveZeros, same]
      exact sameConstant_positiveZero decoded
  | var name =>
      rw [positiveZeros, same, beq_self_eq_true]
  | bin op left right first second =>
      rw [positiveZeros, same, first finite.left, second finite.right, beq_self_eq_true]
      rfl
  | neg operand ih =>
      rw [positiveZeros, same]
      exact ih finite.operand
  | call name arguments ih =>
      rw [positiveZeros, same, beq_self_eq_true, Bool.true_and, positiveZerosAll_eq_map]
      apply sameAll_map
      intro a inside
      exact ih a inside (finite.argument inside)

/-! ### Rules -/

theorem beq_positiveZero (value : Float) {other : Float}
    (number : (0.0 == other) = (-0.0 == other)) : (positiveZero value == other) = (value == other) := by
  rw [positiveZero]
  split
  · next zero =>
      rcases Decimal.eq_zero_of_beq zero with rfl | rfl
      · rfl
      · exact number
  · rfl

theorem isConstant_zero_positiveZeros (e : Expr) :
    (positiveZeros e).isConstant 0.0 = e.isConstant 0.0 := by
  cases e with
  | const value => exact beq_positiveZero value (by decide)
  | _ => rfl

theorem isConstant_one_positiveZeros (e : Expr) :
    (positiveZeros e).isConstant 1.0 = e.isConstant 1.0 := by
  cases e with
  | const value => exact beq_positiveZero value (by decide)
  | _ => rfl

theorem isVariable_positiveZeros (name : String) (e : Expr) :
    (positiveZeros e).isVariable name = e.isVariable name := by
  cases e <;> rfl

theorem positiveZeros_one : positiveZeros .one = .one := by
  have other : ((1.0 : Float) == 0.0) = false := by decide
  simp only [one, positiveZeros, positiveZero, other, Bool.false_eq_true, ↓reduceIte]

theorem identity?_positiveZeros (op : BinaryOp) (left right : Expr) :
    (identity? op (positiveZeros left) (positiveZeros right)).isNone =
      (identity? op left right).isNone := by
  cases op <;> simp only [identity?, isConstant_zero_positiveZeros, isConstant_one_positiveZeros,
    apply_ite Option.isNone, Option.isNone_some, Option.isNone_none]

theorem powerForm?_positiveZeros (e : Expr) :
    powerForm? (positiveZeros e) = (powerForm? e).map fun p => (p.1, positiveZeros p.2) := by
  cases e with
  | var name => rw [positiveZeros, powerForm?, Option.map_some, positiveZeros_one]
  | bin op left right =>
      cases op with
      | pow => cases left <;> rfl
      | _ => rfl
  | _ => rfl

theorem overVariable?_positiveZeros (e : Expr) :
    overVariable? (positiveZeros e) = (overVariable? e).map fun p => (positiveZeros p.1, p.2) := by
  cases e with
  | bin op left right =>
      cases op with
      | div => cases right <;> rfl
      | _ => rfl
  | _ => rfl

theorem commonBase?_positiveZeros (left right : Expr) :
    (commonBase? (positiveZeros left) (positiveZeros right)).isNone =
      (commonBase? left right).isNone := by
  simp only [commonBase?, powerForm?_positiveZeros]
  cases powerForm? left with
  | none => rfl
  | some p =>
      cases powerForm? right with
      | none => rfl
      | some q =>
          simp only [Option.map_some]
          split <;> rfl

theorem timesQuotient?_positiveZeros (factor other : Expr) :
    (timesQuotient? (positiveZeros factor) (positiveZeros other)).isNone =
      (timesQuotient? factor other).isNone := by
  simp only [timesQuotient?, overVariable?_positiveZeros, powerForm?_positiveZeros]
  cases overVariable? other with
  | none => rfl
  | some q =>
      cases powerForm? factor with
      | some p =>
          simp only [Option.map_some]
          split <;> rfl
      | none =>
          simp only [Option.map_some, Option.map_none]
          cases factor with
          | const value =>
              simp only [positiveZeros, isConstant_one_positiveZeros]
              split <;> rfl
          | _ => rfl

theorem cancelled?_positiveZeros (left right : Expr) :
    (cancelled? (positiveZeros left) (positiveZeros right)).isNone =
      (cancelled? left right).isNone := by
  cases left with
  | bin op a b =>
      cases op with
      | mul =>
          cases right with
          | var x =>
              simp only [positiveZeros, cancelled?, isVariable_positiveZeros]
              split
              · rfl
              · split <;> rfl
          | _ => rfl
      | _ => rfl
  | _ => rfl

/-- No rule applies to an operation exactly if each of the rules for its operator fails. -/
theorem reduce_eq_none_iff (op : BinaryOp) (left right : Expr) :
    reduce op left right = .none ↔ (identity? op left right).isNone = true ∧
      (op = .mul → (timesQuotient? left right).isNone = true ∧
        (timesQuotient? right left).isNone = true) ∧
      (op = .div → (cancelled? left right).isNone = true) ∧
      (op.isFactoring = true → (commonBase? left right).isNone = true) := by
  rw [reduce]
  cases identity? op left right with
  | some e => simp
  | none =>
      cases op with
      | mul =>
          simp only [powerRule, BinaryOp.isFactoring]
          cases timesQuotient? left right <;> cases timesQuotient? right left <;>
            cases commonBase? left right <;> simp
      | div =>
          simp only [powerRule, BinaryOp.isFactoring]
          cases cancelled? left right <;> cases commonBase? left right <;> simp
      | _ => simp [powerRule, BinaryOp.isFactoring]

theorem reduce_positiveZeros {op : BinaryOp} {left right : Expr}
    (kept : reduce op left right = .none) :
    reduce op (positiveZeros left) (positiveZeros right) = .none := by
  rw [reduce_eq_none_iff] at kept ⊢
  simp only [identity?_positiveZeros, timesQuotient?_positiveZeros, cancelled?_positiveZeros,
    commonBase?_positiveZeros]
  exact kept

theorem nextBinary_eq_keep_iff (strict : Bool) (op : BinaryOp) (left right : Expr) :
    nextBinary strict op left right = .keep ↔
      (∀ value, foldBinary strict op left right ≠ .value value) ∧
        reduce op left right = .none := by
  rw [nextBinary]
  cases foldBinary strict op left right with
  | value v => simp
  | _ => cases reduce op left right <;> simp

/-- An operation on constants that is kept was refused by strict arithmetic. -/
theorem foldBinary_const_ne_value_iff (strict : Bool) (op : BinaryOp) (a b : Float) :
    (∀ value, foldBinary strict op (.const a) (.const b) ≠ .value value) ↔
      ∃ failure, op.value strict a b = .error failure := by
  rw [foldBinary]
  cases op.value strict a b with
  | ok v => simp
  | error failure => simp

theorem value_sub_zero {strict : Bool} {a b : Float} (zero : (a == 0.0) = true)
    (finite : HasFiniteValue (.const b)) : BinaryOp.value strict .sub a b = .ok (a - b) := by
  obtain ⟨c, decoded⟩ := finite
  have bounded := BinaryOp.isInf_plain_zero_left (by decide : BinaryOp.sub ≠ .pow) zero
    (Decimal.isFinite_of_decode decoded)
  exact BinaryOp.value_of_bounded rfl bounded

/-- A zero among two constants that are kept is a divisor. -/
theorem zero_of_kept {strict : Bool} {op : BinaryOp} {a b : Float}
    (rules : (identity? op (.const a) (.const b)).isNone = true)
    (refused : ∃ failure, op.value strict a b = .error failure)
    (finite : HasFiniteValue (.const b)) :
    (a == 0.0) = false ∧ ((b == 0.0) = true → op = .div) := by
  obtain ⟨failure, refused⟩ := refused
  cases op with
  | add =>
      simp only [identity?, isConstant] at rules
      cases first : a == 0.0 <;> cases second : b == 0.0 <;> simp [first, second] at rules ⊢
  | sub =>
      simp only [identity?, isConstant] at rules
      cases first : a == 0.0 with
      | true =>
          rw [value_sub_zero first finite] at refused
          cases refused
      | false => cases second : b == 0.0 <;> simp [second] at rules ⊢
  | mul =>
      simp only [identity?, isConstant] at rules
      cases first : a == 0.0 <;> cases second : b == 0.0 <;> simp [first, second] at rules ⊢
  | div =>
      simp only [identity?, isConstant] at rules
      cases first : a == 0.0 <;> simp [first] at rules ⊢
  | pow =>
      rw [Option.isNone_iff_eq_none, identity?] at rules
      split at rules
      · cases rules
      · split at rules
        · cases rules
        · next notZero =>
            split at rules
            · cases rules
            · split at rules
              · cases rules
              · next notZero' =>
                  exact ⟨Bool.eq_false_iff.2 notZero', fun zero => absurd zero notZero⟩

theorem value_div_zero {strict : Bool} {a b : Float} {failure : Failure}
    (refused : BinaryOp.value strict .div a b = .error failure) :
    ∃ failure, BinaryOp.value strict .div a 0.0 = .error failure := by
  cases strict with
  | false =>
      rw [BinaryOp.value_plain] at refused
      cases refused
  | true =>
      have zero : ((0.0 : Float) == 0.0) = true := by decide
      refine ⟨.arithmetic (.zeroDivision .div a 0.0), ?_⟩
      simp only [BinaryOp.value, BinaryOp.dividesByZero, zero, Bool.and_self, ↓reduceIte]

theorem nextBinary_positiveZeros {strict : Bool} {op : BinaryOp} {left right : Expr}
    (kept : nextBinary strict op left right = .keep) (finite : HasFiniteValue right) :
    nextBinary strict op (positiveZeros left) (positiveZeros right) = .keep := by
  rw [nextBinary_eq_keep_iff] at kept ⊢
  refine ⟨?_, reduce_positiveZeros kept.2⟩
  cases left with
  | const a =>
      cases right with
      | const b =>
          have rules := ((reduce_eq_none_iff _ _ _).1 kept.2).1
          rw [foldBinary_const_ne_value_iff] at kept
          rw [positiveZeros, positiveZeros, foldBinary_const_ne_value_iff]
          obtain ⟨notZero, divisor⟩ := zero_of_kept rules kept.1 finite
          have same : positiveZero a = a := by
            rw [positiveZero, notZero, if_neg Bool.false_ne_true]
          rw [same]
          by_cases zero : (b == 0.0) = true
          · obtain ⟨failure, refused⟩ := kept.1
            cases divisor zero
            rw [positiveZero, if_pos zero]
            exact value_div_zero refused
          · have same' : positiveZero b = b := by
              rw [positiveZero, if_neg zero]
            rw [same']
            exact kept.1
      | _ => intro value; simp [positiveZeros, foldBinary]
  | _ => intro value; simp [positiveZeros, foldBinary]

theorem negated?_positiveZeros {e : Expr} (kept : negated? e = none) :
    negated? (positiveZeros e) = none := by
  cases e with
  | const value => cases kept
  | neg operand => cases kept
  | _ => rfl

end Formula.Expr
