import Formula.Proofs.Decimal.Units
import Formula.Proofs.Expr.Strictness

/-!
Strict arithmetic and infinities. The check for overflow passes every result of an operand that is no
number. Such a result is no number either, or at least not an infinity, and so no infinity slips past
the check: if none comes in with a constant or a variable, none is met in the whole evaluation.
-/

set_option autoImplicit false

namespace Formula

theorem isFinite_or_isNaN {x : Float} (bounded : x.isInf = false) :
    x.isFinite = true ∨ x.isNaN = true := by
  rcases Decimal.decode_of_not_isInf bounded with ⟨b, decoded⟩ | rfl
  · exact .inl (Decimal.isFinite_of_decode decoded)
  · exact .inr rfl

theorem isFinite_of_number {x : Float} (number : x.isNaN = false) (bounded : x.isInf = false) :
    x.isFinite = true :=
  (isFinite_or_isNaN bounded).resolve_right fun nan => by rw [number] at nan; cases nan

theorem isNaN_of_isFinite {x : Float} (finite : x.isFinite = true) : x.isNaN = false := by
  rw [← Bool.not_eq_true]
  intro nan
  rw [Decimal.eq_nan_of_isNaN nan] at finite
  cases finite

theorem isFinite_neg {x : Float} (finite : x.isFinite = true) : (-x).isFinite = true := by
  obtain ⟨b, decoded⟩ := Decimal.decode_of_isFinite finite
  have canonical := Decimal.Binary.canonical_flip (Decimal.canonical_of_decode decoded)
  rw [Decimal.neg_of_decode decoded]
  exact Decimal.isFinite_of_decode (Decimal.decode_toFloat canonical)

/-- A result that passes the check for overflow is no infinity, if this is known of the operands and
of the result where an operand is no number. -/
theorem not_isInf_of_checkOverflow {operation : Operation} {operands : List Float}
    {result v : Float} (passed : checkOverflow true operation operands result = .ok v)
    (bounded : ∀ a ∈ operands, a.isInf = false)
    (spared : ∀ a ∈ operands, a.isNaN = true → result.isInf = false) : v.isInf = false := by
  cases eq_of_checkOverflow passed
  by_cases number : ∃ a ∈ operands, a.isNaN = true
  · obtain ⟨a, inside, nan⟩ := number
    exact spared a inside nan
  · have finite : operands.all Float.isFinite = true := by
      rw [List.all_eq_true]
      intro a inside
      exact (isFinite_or_isNaN (bounded a inside)).resolve_right fun nan => number ⟨a, inside, nan⟩
    rw [checkOverflow, finite, Bool.and_true, Bool.true_and] at passed
    split at passed
    · cases passed
    · next notInfinite => exact Bool.eq_false_iff.2 notInfinite

/-! ### Operations -/

namespace BinaryOp

variable {op : BinaryOp}

theorem plain_nan_left (computed : op ≠ .pow) (x : Float) : op.plain .nan x = .nan := by
  cases op with
  | pow => exact absurd rfl computed
  | _ => rfl

theorem plain_nan_right (computed : op ≠ .pow) (x : Float) : op.plain x .nan = .nan := by
  have unpacked : op.unpacked x.toModel.unpack .notANumber = .notANumber := by
    cases op <;> cases x.toModel.unpack <;> rfl
  have nan : Float.nan.toModel.unpack = .notANumber := rfl
  rw [plain_eq_unpacked computed, nan, unpacked]
  rfl

/-- Strict arithmetic lets no infinity out of an operation that none goes into, if powers of what is no
number are no infinities. -/
theorem not_isInf_of_value {a b v : Float} (value : op.value true a b = .ok v)
    (first : a.isInf = false) (second : b.isInf = false)
    (power : op = .pow → a.isNaN = true ∨ b.isNaN = true → (Float.pow a b).isInf = false) :
    v.isInf = false := by
  have spared : a.isNaN = true ∨ b.isNaN = true → (op.plain a b).isInf = false := by
    intro nan
    by_cases isPower : op = .pow
    · cases isPower
      exact isInf_power (power rfl nan)
    · rcases nan with nan | nan
      · rw [Decimal.eq_nan_of_isNaN nan, plain_nan_left isPower]
        rfl
      · rw [Decimal.eq_nan_of_isNaN nan, plain_nan_right isPower]
        rfl
  rw [BinaryOp.value] at value
  split at value
  · cases value
  · apply not_isInf_of_checkOverflow value
    · simp only [List.forall_mem_cons, first, second, true_and]
      simp
    · simp only [List.forall_mem_cons]
      exact ⟨fun nan => spared (.inl nan), fun nan => spared (.inr nan), by simp⟩

end BinaryOp

/-! ### Functions -/

theorem isInf_signValue (x : Float) : (signValue x).isInf = false := by
  rw [signValue]
  split
  · next nan =>
      rw [Decimal.eq_nan_of_isNaN nan]
      rfl
  · split
    · decide
    · split <;> decide

theorem isInf_stepValue (x : Float) : (stepValue x).isInf = false := by
  rw [stepValue]
  split <;> decide

theorem isInf_maxValue {a b : Float} (first : a.isInf = false) (second : b.isInf = false) :
    (maxValue a b).isInf = false := by
  rw [maxValue]
  split
  · decide
  · split
    · exact second
    · exact first

namespace Builtin

theorem unary_eq_ok {g : Float → Float} {values : List Float} {result : Float} :
    unary g values = .ok result ↔ ∃ x rest, values = x :: rest ∧ result = g x := by
  cases values with
  | nil => simp [unary]
  | cons x rest => simp [unary, eq_comm]

theorem binary_eq_ok {g : Float → Float → Float} {values : List Float} {result : Float} :
    binary g values = .ok result ↔ ∃ a b rest, values = a :: b :: rest ∧ result = g a b := by
  match values with
  | [] | [_] => simp [binary]
  | a :: b :: rest => simp [binary, eq_comm]

/-- The functions that a mathematical library computes. -/
def elementary? : Builtin → Option (Float → Float)
  | .sin => some Float.sin
  | .cos => some Float.cos
  | .exp => some Float.exp
  | .ln => some Float.log
  | .abs | .sign | .max | .heaviside => none

theorem evaluator_elementary {f : Builtin} {g : Float → Float} (elementary : f.elementary? = some g) :
    f.evaluator = unary g := by
  cases f <;> cases elementary <;> rfl

theorem argumentCount_elementary {f : Builtin} {g : Float → Float}
    (elementary : f.elementary? = some g) : f.argumentCount = 1 := by
  cases f <;> cases elementary <;> rfl

/-- The other functions give no infinity if none is among their arguments. -/
theorem not_isInf_of_evaluator {f : Builtin} (own : f.elementary? = none) {values : List Float}
    {result : Float} (applied : f.evaluator values = .ok result)
    (bounded : ∀ v ∈ values, v.isInf = false) : result.isInf = false := by
  cases f with
  | sin | cos | exp | ln => cases own
  | abs =>
      obtain ⟨x, rest, rfl, rfl⟩ := unary_eq_ok.1 applied
      exact Decimal.isInf_abs (bounded x List.mem_cons_self)
  | sign =>
      obtain ⟨x, rest, rfl, rfl⟩ := unary_eq_ok.1 applied
      exact isInf_signValue x
  | max =>
      obtain ⟨a, b, rest, rfl, rfl⟩ := binary_eq_ok.1 applied
      exact isInf_maxValue (bounded a (by simp)) (bounded b (by simp))
  | heaviside =>
      obtain ⟨x, rest, rfl, rfl⟩ := unary_eq_ok.1 applied
      exact isInf_stepValue x

end Builtin

namespace Expr

section

variable {c : Context}

/-- A node that brings in no infinity: a constant or a variable that is none, or a call of a function
that is built in, if it calls one at all. -/
def IsBounded (c : Context) : Expr → Prop
  | .const value => value.isInf = false
  | .var x => ∀ v, c.variableValue x = .ok v → v.isInf = false
  | .call name _ => ∀ f, c.resolve name = .ok f → ∃ b : Builtin, f = b.definition
  | .bin .. | .neg _ => True

/-- A node at which the mathematical library, if it is asked with something that is no number, does
not answer with an infinity. -/
def SparesNaN (c : Context) : Expr → Prop
  | .bin .pow left right => ∀ a b, evaluate true c left = .ok a → evaluate true c right = .ok b →
      a.isInf = false → b.isInf = false → a.isNaN = true ∨ b.isNaN = true →
        (Float.pow a b).isInf = false
  | .call name arguments => ∀ (b : Builtin) g x, c.resolve name = .ok b.definition →
      b.elementary? = some g → evaluateAll true c arguments = .ok [x] → x.isNaN = true →
        (g x).isInf = false
  | .const _ | .var _ | .bin .. | .neg _ => True

theorem evaluateAll_forall {strict : Bool} {p : Float → Prop} {es : List Expr} {values : List Float}
    (evaluated : evaluateAll strict c es = .ok values)
    (each : ∀ e ∈ es, ∀ v, evaluate strict c e = .ok v → p v) : ∀ v ∈ values, p v := by
  induction es generalizing values with
  | nil =>
      cases evaluated
      simp
  | cons e rest ih =>
      obtain ⟨x, first, xs, more, rfl⟩ := evaluateAll_cons_eq_ok.1 evaluated
      rw [List.forall_mem_cons]
      exact ⟨each e List.mem_cons_self x first,
        ih more fun f inside => each f (List.mem_cons_of_mem e inside)⟩

/-- No value in strict arithmetic is an infinity, if none comes in. -/
theorem not_isInf_of_evaluate (e : Expr) (bounded : e.Everywhere (IsBounded c))
    (library : e.Everywhere (SparesNaN c)) {v : Float} (evaluated : evaluate true c e = .ok v) :
    v.isInf = false := by
  induction e using Expr.induction generalizing v with
  | const value =>
      cases evaluated
      exact bounded.root
  | var x => exact bounded.root v evaluated
  | bin op left right first second =>
      obtain ⟨a, leftValue, b, rightValue, value⟩ := evaluate_bin_eq_ok.1 evaluated
      have leftBounded := first bounded.left library.left leftValue
      have rightBounded := second bounded.right library.right rightValue
      apply BinaryOp.not_isInf_of_value value leftBounded rightBounded
      rintro rfl
      exact library.root a b leftValue rightValue leftBounded rightBounded
  | neg a ih =>
      obtain ⟨x, operand, rfl⟩ := evaluate_neg_eq_ok.1 evaluated
      exact Decimal.isInf_neg (ih bounded.operand library.operand operand)
  | call name arguments ih =>
      obtain ⟨d, found, fits, values, parts, result, applied, passed⟩ :=
        evaluate_call_eq_ok.1 evaluated
      obtain ⟨f, rfl⟩ := bounded.root d found
      have argumentsBounded : ∀ x ∈ values, x.isInf = false :=
        evaluateAll_forall parts fun a inside x value =>
          ih a inside (bounded.argument inside) (library.argument inside) value
      apply not_isInf_of_checkOverflow passed argumentsBounded
      intro x inside nan
      cases elementary : f.elementary? with
      | none => exact Builtin.not_isInf_of_evaluator elementary applied argumentsBounded
      | some g =>
          rw [Definition.apply, Builtin.definition, Builtin.evaluator_elementary elementary] at applied
          obtain ⟨y, rest, rfl, rfl⟩ := Builtin.unary_eq_ok.1 applied
          have single : rest = [] := by
            have count := length_evaluateAll parts
            simp only [Builtin.definition, Arity.accepts, Builtin.argumentCount_elementary elementary,
              beq_iff_eq, List.length_cons] at fits count
            exact List.eq_nil_of_length_eq_zero (by omega)
          cases single
          cases List.mem_singleton.1 inside
          exact library.root f g x found elementary parts nan

end

/-- In strict arithmetic an expression without infinite constants that calls no other functions than
the built-in ones, in a context without infinite variables, has no infinite value, and neither has a
part of it. That `+`, `-`, `*` and `/` carry on what is no number, and what the functions do with it that
are not elementary, follows from their definitions. -/
theorem evaluate_strict_bounded (c : Context) (e : Expr) (bounded : e.Everywhere (IsBounded c))
    (library : e.Everywhere (SparesNaN c)) :
    ∀ s ∈ e.breadthFirst, ∀ v, s.evaluate true c = .ok v → v.isFinite = true ∨ v.isNaN = true := by
  rw [← everywhere_iff_forall_node]
  refine (bounded.nested.and library.nested).mono ?_
  rintro s ⟨bounded, library⟩ v evaluated
  exact isFinite_or_isNaN (not_isInf_of_evaluate s bounded library evaluated)

/-- In `exp(y) * max(x, 1) / y ^ 2` the function and the power are asked with numbers only, and the `x`
that is no number goes through a maximum, a product and a quotient. -/
theorem evaluate_strict_bounded_maximum :
    let c := Context.mk (.ofList [("x", .nan), ("y", 1.0)]) .empty
    let e : Expr := .bin .div
      (.bin .mul (.call "exp" [.var "y"]) (.call "max" [.var "x", .const 1.0]))
      (.bin .pow (.var "y") (.const 2.0))
    e.Everywhere (IsBounded c) ∧ e.Everywhere (SparesNaN c) ∧
      ∀ s ∈ e.breadthFirst, ∀ v, s.evaluate true c = .ok v → v.isFinite = true ∨ v.isNaN = true := by
  intro c e
  have builtin (name : String) : ∀ f, c.resolve name = .ok f → ∃ b : Builtin, f = b.definition := by
    intro f found
    exact (Context.resolve_cases found).resolve_left (by simp [c])
  have x : c.variableValue "x" = .ok .nan := rfl
  have y : c.variableValue "y" = .ok 1.0 := rfl
  have bounded : e.Everywhere (IsBounded c) := by
    simp only [e, everywhere_bin, everywhere_call, everywhere_var, everywhere_const, IsBounded,
      List.mem_cons, List.not_mem_nil, or_false, forall_eq_or_imp, forall_eq, x, y, Except.ok.injEq,
      forall_eq', true_and]
    exact ⟨⟨⟨builtin "exp", by decide +kernel⟩, builtin "max", rfl, by decide +kernel⟩,
      by decide +kernel, by decide +kernel⟩
  have library : e.Everywhere (SparesNaN c) := by
    simp only [e, everywhere_bin, everywhere_call, everywhere_var, everywhere_const, SparesNaN,
      List.mem_cons, List.not_mem_nil, or_false, forall_eq_or_imp, forall_eq, true_and, and_true]
    refine ⟨⟨?exponential, ?maximum⟩, ?power⟩
    case exponential =>
      rintro b g v - - asked nan
      cases asked
      exact absurd nan (by decide +kernel)
    case maximum =>
      rintro b g v - - asked -
      cases length_evaluateAll asked
    case power =>
      rintro a b base exponent - - nan
      cases base
      cases exponent
      exact absurd nan (by decide +kernel)
  exact ⟨bounded, library, evaluate_strict_bounded c e bounded library⟩

end Expr

end Formula
