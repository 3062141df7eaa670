import Formula.Proofs.Expr.Evaluation
import Formula.Proofs.Expr.ExactValue
import Formula.Term

/-!
What the terms of an algebra system stand for. A term is read in exact arithmetic, with a function for
each constructor that is no operation. The term of an expression has a value exactly where the expression
has one, and then the same: a difference is a sum with a product by minus one, and a quotient is a product
with a power to minus one, which zero does not have.
-/

set_option autoImplicit false

namespace Formula

/-! ### Readings -/

def KnownFunction.called : KnownFunction → String
  | .sin => "sin"
  | .cos => "cos"
  | .exp => "exp"
  | .log => "ln"
  | .abs => "abs"
  | .sign => "sign"
  | .max => "max"

theorem KnownFunction.ofCalled?_eq_some_iff (name : String) (f : KnownFunction) :
    ofCalled? name = some f ↔ name = f.called := by
  constructor
  · intro known
    unfold ofCalled? at known
    split at known <;> cases known <;> rfl
  · rintro rfl
    cases f <;> rfl

/-- What symbols and functions of an algebra system stand for. A function need not be defined
everywhere. -/
structure Reading where
  ofSymbol : String → ℚ
  ofKnown : KnownFunction → List ℚ → Option ℚ
  ofStep : ℚ → Option ℚ
  ofUnknown : String → List ℚ → Option ℚ

namespace Reading

/-- Symbols are read as the variables of their names, and functions as what expressions call by the
corresponding names. -/
structure AgreesWith (r : Reading) (i : Interpretation) : Prop where
  symbols : ∀ name, r.ofSymbol name = i.ofVariable name
  known : ∀ (f : KnownFunction) values, r.ofKnown f values = i.ofCall f.called values
  step : ∀ a, r.ofStep a = i.ofCall "heaviside" [a]
  unknown : ∀ name, (∀ f : KnownFunction, f.called ≠ name) → name ≠ "heaviside" →
    ∀ values, r.ofUnknown name values = i.ofCall name values

def ofInterpretation (i : Interpretation) : Reading where
  ofSymbol := i.ofVariable
  ofKnown f := i.ofCall f.called
  ofStep a := i.ofCall "heaviside" [a]
  ofUnknown := i.ofCall

theorem ofInterpretation_agrees (i : Interpretation) : (ofInterpretation i).AgreesWith i where
  symbols _ := rfl
  known _ _ := rfl
  step _ := rfl
  unknown _ _ _ _ := rfl

end Reading

/-! ### Values of terms -/

namespace Term

mutual

def value (r : Reading) : Term → Option ℚ
  | .integer n | .unit n => some n
  | .float x => Decimal.exactValue? x
  | .symbol name => some (r.ofSymbol name)
  | .add left right => do
    let a ← value r left
    let b ← value r right
    return a + b
  | .mul left right => do
    let a ← value r left
    let b ← value r right
    return a * b
  | .pow base exponent => do
    let a ← value r base
    let b ← value r exponent
    BinaryOp.exact .pow a b
  | .known f arguments => do
    let values ← valueAll r arguments
    r.ofKnown f values
  | .step argument => do
    let a ← value r argument
    r.ofStep a
  | .unknown name arguments => do
    let values ← valueAll r arguments
    r.ofUnknown name values

def valueAll (r : Reading) : List Term → Option (List ℚ)
  | [] => some []
  | t :: rest => do
    let a ← value r t
    let values ← valueAll r rest
    return a :: values

end

end Term

namespace Decimal

/-- A binary fraction whose value is an integer stands for this integer. -/
theorem Binary.value_of_integer? {b : Binary} {n : ℤ} (integral : b.integer? = some n) :
    b.value = n := by
  have size := natAbs_integer? integral
  obtain ⟨natural, rfl, -⟩ := integer?_eq_some integral
  have sign : ∀ m : ℕ, ((signed b.negative m : ℤ) : ℚ) = signed b.negative 1 * m := by
    intro m
    cases b.negative <;> simp [signed]
  rw [natAbs_signed] at size
  rw [value, sign b.significand, mul_assoc, sign natural, size, Binary.size, scaledBy]

theorem exactValue?_of_integer? {x : Float} {n : ℤ} (integral : integer? x = some n) :
    exactValue? x = some (n : ℚ) := by
  rw [integer?] at integral
  split at integral
  · next b decoded => rw [exactValue?_of_decode decoded, Binary.value_of_integer? integral]
  · cases integral

end Decimal

namespace Term

variable {r : Reading} {i : Interpretation}

theorem value_ofConstant (x : Float) : (ofConstant x).value r = Decimal.exactValue? x := by
  rw [ofConstant]
  split
  · next n integral => rw [value, Decimal.exactValue?_of_integer? integral]
  · rw [value]

theorem value_minusOne : minusOne.value r = some (-1) := by
  rw [minusOne, value]
  norm_num

theorem exact_pow_minusOne (b : ℚ) :
    BinaryOp.exact .pow b (-1) = if b = 0 then none else some b⁻¹ := by
  by_cases zero : b = 0
  · simp [BinaryOp.exact, zero]
  · have whole : (-1 : ℚ).isInt = true := rfl
    have power : (-1 : ℚ).num = -1 := rfl
    simp [BinaryOp.exact, zero, whole, power]

theorem value_ofOperation (op : BinaryOp) (left right : Term) :
    (ofOperation op left right).value r =
      (left.value r).bind fun a => (right.value r).bind fun b => op.exact a b := by
  cases first : left.value r with
  | none => cases op <;> simp [ofOperation, value, first]
  | some a =>
      cases second : right.value r with
      | none => cases op <;> simp [ofOperation, value, first, second, value_minusOne]
      | some b =>
          cases op with
          | add => simp [ofOperation, value, first, second, BinaryOp.exact]
          | sub => simp [ofOperation, value, first, second, value_minusOne, BinaryOp.exact,
              sub_eq_add_neg]
          | mul => simp [ofOperation, value, first, second, BinaryOp.exact]
          | pow => simp [ofOperation, value, first, second]
          | div =>
              simp only [ofOperation, value, first, second, value_minusOne, bind, pure,
                Option.bind_some, exact_pow_minusOne]
              rw [BinaryOp.exact]
              by_cases zero : b = 0
              · rw [if_pos zero, if_pos zero, Option.bind_none]
              · rw [if_neg zero, if_neg zero, Option.bind_some, div_eq_mul_inv]

/-- The terms of calls: of a known function, of the step with one argument, and of any other function. -/
theorem ofCall_cases {name : String} {arguments : List Term} {t : Term}
    (translated : ofCall name arguments = .ok t) :
    (∃ f : KnownFunction, name = f.called ∧ t = .known f arguments) ∨
      (name = "heaviside" ∧ ∃ argument, arguments = [argument] ∧ t = .step argument) ∨
      ((∀ f : KnownFunction, f.called ≠ name) ∧ name ≠ "heaviside" ∧
        t = .unknown name arguments) := by
  unfold ofCall at translated
  cases known : KnownFunction.ofCalled? name with
  | some f =>
      rw [known] at translated
      cases translated
      exact .inl ⟨f, (KnownFunction.ofCalled?_eq_some_iff name f).1 known, rfl⟩
  | none =>
      simp only [known] at translated
      by_cases step : name = "heaviside"
      · rw [if_pos step] at translated
        match arguments, translated with
        | [argument], translated =>
            cases translated
            exact .inr (.inl ⟨step, argument, rfl, rfl⟩)
        | [], translated | _ :: _ :: _, translated => cases translated
      · rw [if_neg step] at translated
        cases translated
        refine .inr (.inr ⟨fun f same => ?_, step, rfl⟩)
        rw [(KnownFunction.ofCalled?_eq_some_iff name f).2 same.symm] at known
        cases known

theorem value_ofCall (agrees : r.AgreesWith i) {name : String} {arguments : List Term} {t : Term}
    (translated : ofCall name arguments = .ok t) :
    t.value r = (valueAll r arguments).bind (i.ofCall name) := by
  rcases ofCall_cases translated with
    ⟨f, rfl, rfl⟩ | ⟨rfl, argument, rfl, rfl⟩ | ⟨unlisted, other, rfl⟩
  · rw [value, funext (agrees.known f)]
    rfl
  · rw [value, valueAll, valueAll, funext agrees.step]
    cases argument.value r with
    | none => rfl
    | some a => rfl
  · rw [value, funext (agrees.unknown name unlisted other)]
    rfl

end Term

namespace Expr

/-! ### The term of an expression -/

/-- A call of the step has one argument. -/
def HasStepArgument : Expr → Prop
  | .call name arguments => name = "heaviside" → arguments.length = 1
  | .const _ | .var _ | .bin .. | .neg _ => True

theorem toTerms_cons_eq_ok {e : Expr} {rest : List Expr} {ts : List Term} :
    toTerms (e :: rest) = .ok ts ↔
      ∃ t, e.toTerm = .ok t ∧ ∃ more, toTerms rest = .ok more ∧ t :: more = ts := by
  rw [toTerms]
  simp only [bind_eq_ok, pure, Except.pure, Except.ok.injEq]

/-- The terms of arguments stand for what the arguments stand for. -/
theorem valueAll_toTerms {r : Reading} {i : Interpretation} {es : List Expr} {ts : List Term}
    (each : ∀ e ∈ es, ∀ t, e.toTerm = .ok t → t.value r = i.value e)
    (translated : toTerms es = .ok ts) : Term.valueAll r ts = i.valueAll es := by
  induction es generalizing ts with
  | nil =>
      cases translated
      rfl
  | cons e rest ih =>
      obtain ⟨t, first, more, others, rfl⟩ := toTerms_cons_eq_ok.1 translated
      rw [Term.valueAll, Interpretation.valueAll, each e List.mem_cons_self t first,
        ih (fun f inside => each f (List.mem_cons_of_mem e inside)) others]

theorem value_toTerm {r : Reading} {i : Interpretation} (agrees : r.AgreesWith i) (e : Expr) (t : Term)
    (translated : e.toTerm = .ok t) : t.value r = i.value e := by
  induction e using Expr.induction generalizing t with
  | const x =>
      cases translated
      exact Term.value_ofConstant x
  | var name =>
      cases translated
      exact congrArg some (agrees.symbols name)
  | bin op left right first second =>
      simp only [toTerm, bind_eq_ok, pure, Except.pure, Except.ok.injEq] at translated
      obtain ⟨l, leftTerm, s, rightTerm, rfl⟩ := translated
      rw [Term.value_ofOperation, first l leftTerm, second s rightTerm]
      rfl
  | neg operand ih =>
      simp only [toTerm, bind_eq_ok, pure, Except.pure, Except.ok.injEq] at translated
      obtain ⟨u, operandTerm, rfl⟩ := translated
      rw [Term.value, Term.value_minusOne, ih u operandTerm, Interpretation.value]
      cases i.value operand with
      | none => rfl
      | some a => exact congrArg some (neg_one_mul a)
  | call name arguments ih =>
      simp only [toTerm, bind_eq_ok] at translated
      obtain ⟨ts, each, call⟩ := translated
      rw [Term.value_ofCall agrees call, valueAll_toTerms ih each]
      rfl

/-! ### Success -/

theorem toTerms_ok {es : List Expr} (each : ∀ e ∈ es, ∃ t, e.toTerm = .ok t) :
    ∃ ts, toTerms es = .ok ts ∧ ts.length = es.length := by
  induction es with
  | nil => exact ⟨[], rfl, rfl⟩
  | cons e rest ih =>
      obtain ⟨t, first⟩ := each e List.mem_cons_self
      obtain ⟨ts, others, count⟩ := ih fun f inside => each f (List.mem_cons_of_mem e inside)
      exact ⟨t :: ts, toTerms_cons_eq_ok.2 ⟨t, first, ts, others, rfl⟩, congrArg (· + 1) count⟩

theorem ofCall_ok (name : String) {arguments : List Term}
    (steps : name = "heaviside" → arguments.length = 1) :
    ∃ t, Term.ofCall name arguments = .ok t := by
  unfold Term.ofCall
  cases KnownFunction.ofCalled? name with
  | some f => exact ⟨_, rfl⟩
  | none =>
      by_cases step : name = "heaviside"
      · obtain ⟨argument, rfl⟩ := List.length_eq_one_iff.1 (steps step)
        exact ⟨_, if_pos step⟩
      · exact ⟨_, if_neg step⟩

theorem toTerm_ok (e : Expr) (steps : e.Everywhere HasStepArgument) : ∃ t, e.toTerm = .ok t := by
  induction e using Expr.induction with
  | const x => exact ⟨_, rfl⟩
  | var name => exact ⟨_, rfl⟩
  | bin op left right first second =>
      obtain ⟨l, leftTerm⟩ := first steps.left
      obtain ⟨s, rightTerm⟩ := second steps.right
      exact ⟨.ofOperation op l s, by rw [toTerm, leftTerm, rightTerm]; rfl⟩
  | neg operand ih =>
      obtain ⟨u, operandTerm⟩ := ih steps.operand
      exact ⟨.mul .minusOne u, by rw [toTerm, operandTerm]; rfl⟩
  | call name arguments ih =>
      obtain ⟨ts, each, count⟩ := toTerms_ok fun a inside => ih a inside (steps.argument inside)
      obtain ⟨t, call⟩ := ofCall_ok name fun step => count.trans (steps.root step)
      exact ⟨t, by rw [toTerm, each]; exact call⟩

end Expr

/-! ### Where there are values -/

namespace Interpretation

variable {i : Interpretation}

/-- What a node needs beside the values of its parts: a constant is finite, a divisor is not zero, and an
exponent is an integer, above zero if the base is zero. -/
def Admits (i : Interpretation) : Expr → Prop
  | .const x => ∃ b, Decimal.decode x = .finite b
  | .bin .div _ right => i.value right ≠ some 0
  | .bin .pow left right => ∃ n : ℤ, i.value right = some (n : ℚ) ∧ (i.value left = some 0 → 0 < n)
  | .bin .add .. | .bin .sub .. | .bin .mul .. | .var _ | .neg _ | .call .. => True

theorem admits_of_isDefinedAt {e : Expr} (defined : i.IsDefinedAt e) : i.Admits e := by
  obtain ⟨q, found⟩ := isDefinedAt_iff.1 defined
  cases e with
  | const x =>
      rw [value, Decimal.exactValue?] at found
      cases decoded : Decimal.decode x with
      | finite b => exact ⟨b, decoded⟩
      | nan | infinite => rw [decoded] at found; cases found
  | bin op left right =>
      obtain ⟨a, first, b, second, operation⟩ := value_bin.1 found
      cases op with
      | add | sub | mul => trivial
      | div =>
          have divisor := (BinaryOp.exact_div.1 operation).1
          rw [Admits, second]
          exact fun zero => divisor (Option.some.inj zero)
      | pow =>
          obtain ⟨n, rfl, above, -⟩ := BinaryOp.exact_pow.1 operation
          refine ⟨n, second, fun zero => above ?_⟩
          rw [first] at zero
          exact Option.some.inj zero
  | var name | neg operand | call name arguments => trivial

theorem exists_exact {op : BinaryOp} {left right : Expr} {a b : ℚ}
    (first : i.value left = some a) (second : i.value right = some b)
    (admits : i.Admits (.bin op left right)) : ∃ q, op.exact a b = some q := by
  cases op with
  | add => exact ⟨_, rfl⟩
  | sub => exact ⟨_, rfl⟩
  | mul => exact ⟨_, rfl⟩
  | div =>
      refine ⟨a / b, BinaryOp.exact_div.2 ⟨?_, rfl⟩⟩
      rintro rfl
      exact admits second
  | pow =>
      obtain ⟨n, exponent, above⟩ := admits
      rw [second] at exponent
      refine ⟨a ^ n, BinaryOp.exact_pow.2 ⟨n, Option.some.inj exponent, fun zero => above ?_, rfl⟩⟩
      rw [first, zero]

theorem exists_valueAll {es : List Expr} (each : ∀ e ∈ es, i.IsDefinedAt e) :
    ∃ values, i.valueAll es = some values := by
  induction es with
  | nil => exact ⟨[], rfl⟩
  | cons e rest ih =>
      obtain ⟨a, first⟩ := isDefinedAt_iff.1 (each e List.mem_cons_self)
      obtain ⟨values, others⟩ := ih fun f inside => each f (List.mem_cons_of_mem e inside)
      exact ⟨a :: values, valueAll_cons.2 ⟨a, first, values, others, rfl⟩⟩

/-- Where every call has a value, an expression has one exactly if each of its nodes has what it needs. -/
theorem isDefinedAt_iff_admits (calls : ∀ name values, ∃ q, i.ofCall name values = some q) (e : Expr) :
    i.IsDefinedAt e ↔ e.Everywhere i.Admits := by
  refine ⟨fun defined => (everywhere_of_isDefinedAt e defined).mono fun _ => admits_of_isDefinedAt, ?_⟩
  intro admits
  induction e using Expr.induction with
  | const x =>
      obtain ⟨b, decoded⟩ := admits.root
      exact isDefinedAt_iff.2 ⟨b.value, Decimal.exactValue?_of_decode decoded⟩
  | var name => rfl
  | bin op left right first second =>
      obtain ⟨a, leftValue⟩ := isDefinedAt_iff.1 (first admits.left)
      obtain ⟨b, rightValue⟩ := isDefinedAt_iff.1 (second admits.right)
      obtain ⟨q, operation⟩ := exists_exact leftValue rightValue admits.root
      exact isDefinedAt_iff.2 ⟨q, value_bin.2 ⟨a, leftValue, b, rightValue, operation⟩⟩
  | neg operand ih =>
      obtain ⟨a, operandValue⟩ := isDefinedAt_iff.1 (ih admits.operand)
      exact isDefinedAt_iff.2 ⟨-a, value_neg.2 ⟨a, operandValue, rfl⟩⟩
  | call name arguments ih =>
      obtain ⟨values, all⟩ := exists_valueAll fun a inside => ih a inside (admits.argument inside)
      obtain ⟨q, found⟩ := calls name values
      exact isDefinedAt_iff.2 ⟨q, value_call.2 ⟨values, all, found⟩⟩

end Interpretation

namespace Expr

/-- An expression whose steps have one argument each has a term. However variables and calls are
interpreted, and the functions of the algebra system read as what they are called by, the term has the
value of the expression, or both have none. If all calls have values, there is one exactly if all
constants are finite, no divisor is zero, and all exponents are integers, above zero where the base is
zero. -/
theorem toTerm_denotes (e : Expr) (steps : e.Everywhere HasStepArgument) :
    ∃ t, e.toTerm = .ok t ∧
      ∀ (r : Reading) (i : Interpretation), r.AgreesWith i →
        t.value r = i.value e ∧
          ((∀ name values, ∃ q, i.ofCall name values = some q) →
            ((t.value r).isSome = true ↔ e.Everywhere i.Admits)) := by
  obtain ⟨t, translated⟩ := toTerm_ok e steps
  refine ⟨t, translated, fun r i agrees => ?_⟩
  have same := value_toTerm agrees e t translated
  refine ⟨same, fun calls => ?_⟩
  rw [same]
  exact Interpretation.isDefinedAt_iff_admits calls e

/-- `heaviside(x) / (x - 2) ^ -ln(x)`, where `x` is three and each call stands for the sum of its
arguments: the term has the value three, that of the expression. -/
theorem toTerm_denotes_quotient :
    let e : Expr := .bin .div (.call "heaviside" [.var "x"])
      (.bin .pow (.bin .sub (.var "x") .two) (.neg (.call "ln" [.var "x"])))
    let i : Interpretation := ⟨fun _ => 3, fun _ values => some values.sum⟩
    e.Everywhere HasStepArgument ∧ i.value e = some 3 ∧
      ∃ t, e.toTerm = .ok t ∧ (Reading.ofInterpretation i).AgreesWith i ∧
        t.value (.ofInterpretation i) = some 3 ∧ e.Everywhere i.Admits := by
  intro e i
  have steps : e.Everywhere HasStepArgument := by
    simp [e, HasStepArgument, Expr.two]
  have whole : i.value e = some 3 := by
    have sum : ([3] : List ℚ).sum = 3 := List.sum_singleton
    have called : ∀ name, i.value (.call name [.var "x"]) = some 3 := fun name =>
      Interpretation.value_call.2 ⟨[3], rfl, congrArg some sum⟩
    have base : i.value (.bin .sub (.var "x") .two) = some 1 :=
      Interpretation.value_bin.2 ⟨3, rfl, 2, Interpretation.value_two,
        BinaryOp.exact_sub.2 (by norm_num)⟩
    have exponent : i.value (.neg (.call "ln" [.var "x"])) = some ((-3 : ℤ) : ℚ) :=
      Interpretation.value_neg.2 ⟨3, called "ln", by norm_num⟩
    have power : i.value (.bin .pow (.bin .sub (.var "x") .two) (.neg (.call "ln" [.var "x"]))) =
        some 1 :=
      Interpretation.value_bin.2 ⟨1, base, _, exponent, BinaryOp.exact_pow.2
        ⟨-3, rfl, fun zero => absurd zero one_ne_zero, one_zpow _⟩⟩
    exact Interpretation.value_bin.2 ⟨3, called "heaviside", 1, power,
      BinaryOp.exact_div.2 ⟨one_ne_zero, div_one 3⟩⟩
  obtain ⟨t, translated, denotes⟩ := toTerm_denotes e steps
  have agrees := Reading.ofInterpretation_agrees i
  obtain ⟨same, defined⟩ := denotes _ i agrees
  have found := same.trans whole
  refine ⟨steps, whole, t, translated, agrees, found, ?_⟩
  refine (defined fun name values => ⟨values.sum, rfl⟩).1 ?_
  rw [found]
  rfl

end Expr

end Formula
