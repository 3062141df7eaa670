import Formula.Proofs.Derivative.Orders
import Formula.Proofs.Simplify.Vanishing

/-!
Derivatives by variables that do not occur. The rules multiply the zeros of constants and of other
variables with finite factors and divide them by other divisors than zero, so that a derivative is
simplified to zero. There is one exception: the rule for quotients divides by the square of the
divisor, and with constants this is done in floating-point arithmetic. If the square is zero, the
quotient of two zeros is no number, and this is never lost again.
-/

set_option autoImplicit false

namespace Formula.Expr

/-! ### Conditions -/

/-- A node that is no quotient by a constant, or one by a constant whose square is not zero. -/
def HasSquare : Expr → Prop
  | .bin .div _ (.const c) => (power c 2.0 == 0.0) = false
  | _ => True

/-- A call of a function whose derivative is zero, whatever its argument is. -/
def IsJump : Expr → Prop
  | .call name _ => name = Builtin.sign.name ∨ name = Builtin.heaviside.name
  | _ => False

/-- A property holds at every node that is not inside an argument of a jump. -/
inductive OutsideJumps (p : Expr → Prop) : Expr → Prop
  | node (e : Expr) (holds : p e) (parts : ¬ IsJump e → ∀ child ∈ e.children, OutsideJumps p child) :
      OutsideJumps p e

/-- What the library is known for, at the constants that a derivative applies it to. The square of a
number is a number. The logarithm of another number than zero is not infinite, and zero only for one;
that of zero may be infinite, but it is there. Sines and cosines are not infinite. -/
def LibraryHolds : Expr → Prop
  | .bin .div _ (.const c) => (power c 2.0).isNaN = false
  | .bin .pow (.const c) _ => (c == 0.0) = false →
      (Float.log c).isInf = false ∧ ((Float.log c == 0.0) = true → (c == 1.0) = true)
  | .call name [.const c] =>
      (name = Builtin.sin.name → (Float.cos c).isInf = false) ∧
      (name = Builtin.cos.name → (Float.sin c).isInf = false) ∧
      (name = Builtin.ln.name → (c == 0.0) = true → (Float.log c).isNaN = false)
  | _ => True

/-- A node of a simplified expression with finite constants and calls of built-in functions, other than
one variable. -/
structure IsSteady (x : String) (n : Expr) : Prop where
  stands : Stands false n
  finite : HasFiniteValue n
  inArity : CallsInArity n
  other : n ≠ .var x
  library : LibraryHolds n

theorem outsideJumps_iff {p : Expr → Prop} (e : Expr) :
    OutsideJumps p e ↔ p e ∧ (¬ IsJump e → ∀ child ∈ e.children, OutsideJumps p child) :=
  ⟨fun ⟨_, holds, parts⟩ => ⟨holds, parts⟩, fun ⟨holds, parts⟩ => .node e holds parts⟩

theorem outsideJumps_bin {p : Expr → Prop} (op : BinaryOp) (u v : Expr) :
    OutsideJumps p (.bin op u v) ↔
      p (.bin op u v) ∧ OutsideJumps p u ∧ OutsideJumps p v := by
  rw [outsideJumps_iff]
  simp [IsJump, children]

theorem outsideJumps_neg (u : Expr) :
    OutsideJumps HasSquare (.neg u) ↔ OutsideJumps HasSquare u := by
  rw [outsideJumps_iff]
  simp [HasSquare, IsJump, children]

theorem outsideJumps_const (c : Float) : OutsideJumps HasSquare (.const c) := by
  rw [outsideJumps_iff]
  simp [HasSquare, children]

theorem outsideJumps_var (y : String) : OutsideJumps HasSquare (.var y) := by
  rw [outsideJumps_iff]
  simp [HasSquare, children]

theorem outsideJumps_call {f : Builtin} (chained : f ≠ .sign ∧ f ≠ .heaviside)
    (arguments : List Expr) :
    OutsideJumps HasSquare (.call f.name arguments) ↔
      ∀ a ∈ arguments, OutsideJumps HasSquare a := by
  have smooth : ¬ IsJump (.call f.name arguments) := by
    cases f <;> simp [IsJump, Builtin.name] at chained ⊢
  rw [outsideJumps_iff]
  simp only [HasSquare, smooth, not_false_eq_true, children, true_and, true_implies]

theorem outsideJumps_jump {f : Builtin} (jump : f = .sign ∨ f = .heaviside) (arguments : List Expr) :
    OutsideJumps HasSquare (.call f.name arguments) :=
  .node _ trivial fun smooth => absurd (jump.imp (congrArg _) (congrArg _)) smooth

/-! ### Parts of simplified expressions -/

section

variable {level : Level} {x : String} {u v du dv e : Expr}

theorem kept_of_steady (steady : u.Everywhere (IsSteady x)) : u.Everywhere (Stands false) :=
  steady.mono fun _ n => n.stands

theorem tree_of_steady (level : Level) (steady : u.Everywhere (IsSteady x)) :
    (simplify false level u).tree = u :=
  (simplify_of_stands level u (kept_of_steady steady)).1

theorem isFinite_of_steady {c : Float} (steady : (Expr.const c).Everywhere (IsSteady x)) :
    c.isFinite = true := by
  obtain ⟨b, decoded⟩ := steady.root.finite
  exact Decimal.isFinite_of_decode decoded

theorem harmless_of_steady (steady : u.Everywhere (IsSteady x)) : Harmless level u := by
  intro c constant
  rw [tree_of_steady level steady] at constant
  exact isFinite_of_steady (constant ▸ steady)

theorem isConstant_of_vanishes (steady : u.Everywhere (IsSteady x)) (vanishes : Vanishes level u) :
    u.isConstant 0.0 = true := by
  rwa [Vanishes, tree_of_steady level steady] at vanishes

/-- A part is not simplified to zero if a law applies to a zero in its place. -/
theorem not_vanishes_of_law (steady : e.Everywhere (IsSteady x)) (part : u.Everywhere (IsSteady x))
    (law : u.isConstant 0.0 = true → ∃ e', Law e e') : ¬ Vanishes level u := by
  intro vanishes
  obtain ⟨e', law⟩ := law (isConstant_of_vanishes part vanishes)
  exact not_law_of_kept (kept_of_steady steady) law

theorem isFactor_of_steady {good : Prop} (steady : u.Everywhere (IsSteady x))
    (notZero : ¬ Vanishes level u) : IsFactor level good u :=
  ⟨harmless_of_steady steady, fun _ => notZero⟩

theorem unfolded_of_steady {op : BinaryOp} (steady : (Expr.bin op u v).Everywhere (IsSteady x)) :
    Unfolded level (.bin op u v) := by
  intro c
  rw [tree_of_steady level steady]
  exact fun same => by cases same

/-! ### Calls -/

/-- A call of a built-in function of one argument is folded only if the argument is a constant in its
domain. -/
theorem tree_unary_cases (level : Level) {f : Builtin} (single : f.argumentCount = 1)
    (steady : u.Everywhere (IsSteady x)) :
    Unfolded level (.call f.name [u]) ∨
      ∃ c v, u = .const c ∧ f.evaluator [c] = .ok v ∧ v.isNaN = false ∧
        (simplify false level (.call f.name [u])).tree = .const v := by
  rw [Unfolded, tree_simplify_call, trees_simplifyAll, List.map_cons, List.map_nil,
    tree_of_steady level steady, foldedCall?]
  split
  · next v folded =>
      right
      obtain ⟨_, values, -, constants, -, value⟩ := foldCall_eq_value folded
      obtain ⟨c, rfl, rfl⟩ := List.map_eq_singleton_iff.1 constants.symm
      have fits : f.argumentCount = [c].length := single
      obtain ⟨result, applied⟩ := f.evaluator_ok fits
      have evaluated : evaluateAll false .empty [.const c] = .ok [c] :=
        evaluateAll_constants false .empty [c]
      rw [evaluate_builtin single evaluated applied, checkOverflow_plain] at value
      cases value
      refine ⟨c, v, rfl, applied, ?_, rfl⟩
      rw [← Bool.not_eq_true]
      intro nan
      have outside : [c].any Float.isNaN = true := inDomain_of_foldCall folded nan
      rw [List.any_cons, List.any_nil, Bool.or_false,
        isNaN_of_isFinite (isFinite_of_steady steady)] at outside
      cases outside
  · exact .inl fun c same => by cases same

/-- A factor of a derivative that depends on an argument only. -/
theorem factor_of_call {g : Builtin} (single : g.argumentCount = 1)
    (steady : u.Everywhere (IsSteady x))
    (bounded : ∀ c v, u = .const c → g.evaluator [c] = .ok v → v.isInf = false) :
    IsFactor level (u.OutsideJumps HasSquare) (.call g.name [u]) := by
  rcases tree_unary_cases level single steady with
    unfolded | ⟨c, v, rfl, applied, number, folded⟩
  · exact unfolded.isFactor
  · refine ⟨fun d same => ?_, fun fails => absurd (outsideJumps_const c) fails⟩
    cases folded.symm.trans same
    exact isFinite_of_number number (bounded c v rfl applied)

/-! ### Operations -/

theorem hinges_mul (steady : (Expr.bin .mul u v).Everywhere (IsSteady x)) {p q : Prop}
    (first : Hinges level p du) (second : Hinges level q dv) :
    Hinges level (p ∧ q) (BinaryOp.mul.derivative u v du dv) := by
  have left : ¬ Vanishes level u :=
    not_vanishes_of_law steady steady.left fun zero => ⟨_, .settles (.zeroMul zero v)⟩
  have right : ¬ Vanishes level v :=
    not_vanishes_of_law steady steady.right fun zero => ⟨_, .settles (.mulZero u zero)⟩
  exact (first.mul_left (isFactor_of_steady steady.right right)).add
    (second.mul_right (isFactor_of_steady steady.left left))

theorem tree_square_const (level : Level) (c : Float) :
    (simplify false level (.bin .pow (.const c) .two)).tree = .const (power c 2.0) := by
  rw [tree_simplify_bin, simplify_const, Expr.two, simplify_const]
  rfl

/-- The square of anything else is no constant. -/
theorem unfolded_square (kept : v.Everywhere (Stands false)) (other : ∀ c, v ≠ .const c) :
    Unfolded level (.bin .pow v .two) := by
  intro c
  have keptTwo : Expr.two.Everywhere (Stands false) := (everywhere_const _).2 trivial
  rcases tree_simplify_cases level .pow kept keptTwo with
    ⟨a, b, constant, -, -⟩ | ⟨e, settles, -⟩ | ⟨e, regroups, -, -⟩ | same
  · exact absurd constant (other a)
  · cases settles with
    | powOne _ one => exact absurd one (by decide)
    | powZero _ zero => exact absurd zero (by decide)
    | onePow one =>
        obtain ⟨a, constant, -⟩ := isConstant_cases one
        exact absurd constant (other a)
    | zeroPow zero =>
        obtain ⟨a, constant, -⟩ := isConstant_cases zero
        exact absurd constant (other a)
  · cases regroups
  · rw [same]
    exact fun folded => by cases folded

theorem isZero_square {c : Float} (zero : (c == 0.0) = true) : (power c 2.0 == 0.0) = true := by
  rcases Decimal.eq_zero_of_beq zero with rfl | rfl <;> decide

theorem hasSquare_of_not_const (u : Expr) (other : ∀ c, v ≠ .const c) :
    HasSquare (.bin .div u v) := by
  cases v with
  | const c => exact absurd rfl (other c)
  | _ => trivial

theorem not_vanishes_of_hasSquare (steady : v.Everywhere (IsSteady x))
    (good : HasSquare (.bin .div u v)) : ¬ Vanishes level v := by
  intro vanishes
  obtain ⟨c, rfl, zero⟩ := isConstant_cases (isConstant_of_vanishes steady vanishes)
  have square : (power c 2.0 == 0.0) = false := good
  rw [isZero_square zero] at square
  cases square

/-- Nor is the square then zero, or what is no number, when it is simplified. -/
theorem square_of_hasSquare (steady : (Expr.bin .div u v).Everywhere (IsSteady x))
    (good : HasSquare (.bin .div u v)) {c : Float}
    (folded : (simplify false level (.bin .pow v .two)).tree = .const c) :
    (c == 0.0) = false ∧ c.isNaN = false := by
  by_cases constant : ∃ a, v = .const a
  · obtain ⟨a, rfl⟩ := constant
    cases (tree_square_const level a).symm.trans folded
    exact ⟨good, steady.root.library⟩
  · have kept := kept_of_steady steady.right
    exact absurd folded (unfolded_square kept (not_exists.1 constant) c)

/-- A quotient is derived to zero if its operands are and the square of its divisor is not zero. -/
theorem hinges_div (steady : (Expr.bin .div u v).Everywhere (IsSteady x)) {p q : Prop}
    (first : Hinges level p du) (second : Hinges level q dv) :
    Hinges level (HasSquare (.bin .div u v) ∧ p ∧ q) (BinaryOp.div.derivative u v du dv) := by
  have left : ¬ Vanishes level u :=
    not_vanishes_of_law steady steady.left fun zero => ⟨_, .settles (.zeroDiv zero v)⟩
  have subtrahend := second.mul_right (isFactor_of_steady steady.left left)
  by_cases good : HasSquare (.bin .div u v)
  · have right : ¬ Vanishes level v := not_vanishes_of_hasSquare steady.right good
    have minuend := first.mul_left (isFactor_of_steady steady.right right)
    have divided := (minuend.sub subtrahend).div fun _ => square_of_hasSquare steady good
    simpa only [good, true_and, BinaryOp.derivative] using divided
  · -- The divisor may be zero here, so nothing is known of the products but that they are zero or
    -- spoilt. Divided by zero both end as what is no number.
    refine ⟨fun holds => absurd holds.1 good, fun _ => ?_⟩
    have dividend := either_sub (either_mul first.either (harmless_of_steady steady.right))
      subtrahend.either
    obtain ⟨c, rfl⟩ : ∃ c, v = .const c := by
      by_contra other
      exact good (hasSquare_of_not_const u (not_exists.1 other))
    rw [HasSquare, Bool.not_eq_false] at good
    exact spoils_div_zero dividend (tree_square_const level c) good

/-- The base of a power in a simplified expression is not zero. -/
theorem base_ne_zero {c : Float} (steady : (Expr.bin .pow (.const c) v).Everywhere (IsSteady x)) :
    (c == 0.0) = false := by
  rw [← Bool.not_eq_true]
  exact fun zero => not_law_of_kept (kept_of_steady steady)
    (.settles (.zeroPow (z := .const c) zero v))

/-- A logarithm as a factor of the derivative of a power. -/
theorem logarithm_of_power {good : Prop} (steady : (Expr.bin .pow u v).Everywhere (IsSteady x)) :
    IsFactor level good (.call Builtin.ln.name [u]) := by
  rcases tree_unary_cases level (f := .ln) rfl steady.left with
    unfolded | ⟨c, w, rfl, applied, number, folded⟩
  · exact unfolded.isFactor
  · cases applied
    obtain ⟨bounded, one⟩ := steady.root.library (base_ne_zero steady)
    refine ⟨fun d same => ?_, fun _ vanishes => ?_⟩
    · cases folded.symm.trans same
      exact isFinite_of_number number bounded
    · rw [Vanishes, folded] at vanishes
      exact not_law_of_kept (kept_of_steady steady)
        (.settles (.onePow (u := .const c) (one vanishes) v))

/-- A power is derived to zero if both of its operands are, as its base is not zero and its exponent
is not. -/
theorem hinges_pow (steady : (Expr.bin .pow u v).Everywhere (IsSteady x)) {p q : Prop}
    (first : Hinges level p du) (second : Hinges level q dv) :
    Hinges level (q ∧ p) (BinaryOp.pow.derivative u v du dv) := by
  have right : ¬ Vanishes level v :=
    not_vanishes_of_law steady steady.right fun zero => ⟨_, .settles (.powZero u zero)⟩
  have quotient := first.div (f := u) fun c constant => by
    rw [tree_of_steady level steady.left] at constant
    subst constant
    exact ⟨base_ne_zero steady, isNaN_of_isFinite (isFinite_of_steady steady.left)⟩
  have sum := (second.mul_left (logarithm_of_power steady)).add
    (quotient.mul_right (isFactor_of_steady steady.right right))
  exact sum.mul_right (unfolded_of_steady steady).isFactor

theorem hinges_derivative (op : BinaryOp) (steady : (Expr.bin op u v).Everywhere (IsSteady x))
    (first : Hinges level (u.OutsideJumps HasSquare) du)
    (second : Hinges level (v.OutsideJumps HasSquare) dv) :
    Hinges level ((Expr.bin op u v).OutsideJumps HasSquare) (op.derivative u v du dv) := by
  rw [outsideJumps_bin]
  cases op with
  | add => simpa only [HasSquare, true_and, BinaryOp.derivative] using first.add second
  | sub => simpa only [HasSquare, true_and, BinaryOp.derivative] using first.sub second
  | mul => simpa only [HasSquare, true_and] using hinges_mul steady first second
  | div => exact hinges_div steady first second
  | pow =>
      simpa only [HasSquare, true_and, and_comm (a := v.OutsideJumps HasSquare)]
        using hinges_pow steady first second

/-! ### Rules -/

variable {answer : Option Context → Expr → String → Fallible Expr} {f : Builtin}
  {arguments : List Expr}

/-- An answer is a derivative that hinges on a condition. -/
def IsHinged (level : Level) (good : Prop) (answer : Fallible Expr) : Prop :=
  ∃ d, answer = .ok d ∧ Hinges level good d

/-- A rule for one argument hinges on the divisors in it, if it puts the derivative of the argument
into an operation that does not change this. -/
theorem isHinged_chain {outer : Expr → Expr → Expr} (smooth : f ≠ .sign ∧ f ≠ .heaviside)
    (preserves : ∀ {u du}, arguments = [u] → Hinges level (u.OutsideJumps HasSquare) du →
      Hinges level (u.OutsideJumps HasSquare) (outer u du))
    (single : 1 = arguments.length)
    (each : ∀ a ∈ arguments, IsHinged level (a.OutsideJumps HasSquare) (answer none a x)) :
    IsHinged level ((Expr.call f.name arguments).OutsideJumps HasSquare)
      ((Builtin.chain outer arguments x).settle answer) := by
  obtain ⟨u, rfl⟩ := List.length_eq_one_iff.1 single.symm
  obtain ⟨du, derived, hinges⟩ := each u List.mem_cons_self
  rw [outsideJumps_call smooth]
  simp only [List.forall_mem_cons, List.not_mem_nil, false_implies, implies_true, and_true]
  refine ⟨outer u du, ?_, preserves rfl hinges⟩
  rw [Builtin.chain, settle_derivative derived, Recipe.settle]

/-- The greater of two expressions stays in the factors that select its derivative. -/
theorem unfolded_firstDominates {a b : Expr}
    (steady : (Expr.call Builtin.max.name [a, b]).Everywhere (IsSteady x)) :
    Unfolded level (Builtin.firstDominates a b) := by
  refine Unfolded.call _ (Unfolded.neg fun c folded => ?_)
  have kept := kept_of_steady steady
  have first := kept_of_steady (steady.argument (a := a) (by simp))
  rcases tree_simplify_cases level .sub kept first with
    ⟨c, d, constant, -, -⟩ | ⟨e, settles, same⟩ | ⟨e, regroups, -, -⟩ | same
  · cases constant
  · rw [Builtin.name] at same
    rw [same] at folded
    cases settles with
    | subZero => cases folded
  · cases regroups
  · cases same.symm.trans folded

theorem isHinged_maxRule (pair : 2 = arguments.length)
    (steady : (Expr.call Builtin.max.name arguments).Everywhere (IsSteady x))
    (each : ∀ a ∈ arguments, IsHinged level (a.OutsideJumps HasSquare) (answer none a x)) :
    IsHinged level ((Expr.call Builtin.max.name arguments).OutsideJumps HasSquare)
      ((Builtin.maxRule arguments x).settle answer) := by
  match arguments, pair with
  | [a, b], _ =>
      obtain ⟨da, derived, first⟩ := each a (by simp)
      obtain ⟨db, derived', second⟩ := each b (by simp)
      have selector : Unfolded level (Builtin.firstDominates a b) := unfolded_firstDominates steady
      rw [outsideJumps_call (by decide)]
      simp only [List.forall_mem_cons, List.not_mem_nil, false_implies, implies_true, and_true]
      refine ⟨Builtin.selectBranch a b da db, ?_, ?_⟩
      · rw [Builtin.maxRule, settle_derivative derived, settle_derivative derived', Recipe.settle]
      · exact (first.mul_right selector.isFactor).add (second.mul_right selector.one_sub.isFactor)

/-- The derivative of a call in a simplified expression hinges on the divisors in its arguments, if those
of the arguments do. -/
theorem isHinged_rule (fits : f.argumentCount = arguments.length)
    (steady : (Expr.call f.name arguments).Everywhere (IsSteady x))
    (each : ∀ a ∈ arguments, IsHinged level (a.OutsideJumps HasSquare) (answer none a x)) :
    IsHinged level ((Expr.call f.name arguments).OutsideJumps HasSquare)
      ((f.rule arguments x).settle answer) := by
  have part {u : Expr} (same : arguments = [u]) : u.Everywhere (IsSteady x) :=
    steady.argument (same ▸ List.mem_cons_self)
  cases f with
  | sin =>
      refine isHinged_chain (by decide) (fun same hinges => ?_) fits each
      refine hinges.mul_right (factor_of_call (g := .cos) rfl (part same) ?_)
      rintro c v rfl applied
      cases same
      cases applied
      exact (steady.root.library).1 rfl
  | cos =>
      refine isHinged_chain (by decide) (fun same hinges => ?_) fits each
      refine hinges.mul_right (IsFactor.neg (factor_of_call (g := .sin) rfl (part same) ?_))
      rintro c v rfl applied
      cases same
      cases applied
      exact (steady.root.library).2.1 rfl
  | exp =>
      refine isHinged_chain (by decide) (fun same hinges => ?_) fits each
      cases same
      refine hinges.mul_right (Unfolded.isFactor fun c folded => ?_)
      cases (tree_of_steady level steady).symm.trans folded
  | ln =>
      refine isHinged_chain (by decide) (fun same hinges => ?_) fits each
      refine hinges.div fun c constant => ?_
      rw [tree_of_steady level (part same)] at constant
      cases constant
      cases same
      refine ⟨?_, isNaN_of_isFinite (isFinite_of_steady (part rfl))⟩
      rw [← Bool.not_eq_true]
      intro zero
      -- The logarithm of zero is folded and does not occur.
      have number := (steady.root.library).2.2 rfl zero
      have redex : IsRedex (.call Builtin.ln.name ([c].map .const)) :=
        .call rfl rfl fun nan => by
          rw [number] at nan
          cases nan
      exact (stands_plain_iff _).1 (kept_of_steady steady).root redex
  | abs =>
      refine isHinged_chain (by decide) (fun same hinges => ?_) fits each
      refine hinges.mul_right (factor_of_call (g := .sign) rfl (part same) ?_)
      rintro c v rfl applied
      cases applied
      exact isInf_signValue c
  | max => exact isHinged_maxRule fits steady each
  | sign => exact ⟨.zero, rfl, .zero (outsideJumps_jump (.inl rfl) arguments)⟩
  | heaviside => exact ⟨.zero, rfl, .zero (outsideJumps_jump (.inr rfl) arguments)⟩

/-! ### Derivatives -/

/-- The rules are followed to the leaves, the derivatives of which are zero. -/
theorem isHinged_deriveUnder {limit : Nat} {e : Expr} (enough : e.size ≤ limit)
    (steady : e.Everywhere (IsSteady x)) :
    IsHinged level (e.OutsideJumps HasSquare) (deriveUnder limit Context.empty x e) := by
  induction e using Expr.induction generalizing limit with
  | const value =>
      rw [deriveUnder_const]
      exact ⟨.zero, rfl, .zero (outsideJumps_const value)⟩
  | var name =>
      have other : name ≠ x := fun same => steady.root.other (congrArg _ same)
      rw [deriveUnder_var, if_neg other]
      exact ⟨.zero, rfl, .zero (outsideJumps_var name)⟩
  | bin op u v first second =>
      rw [size] at enough
      have smaller : u.size ≤ limit ∧ v.size ≤ limit := by omega
      obtain ⟨du, derivesU, hinges⟩ := first smaller.1 steady.left
      obtain ⟨dv, derivesV, hinges'⟩ := second smaller.2 steady.right
      rw [deriveUnder_bin, derivesU, derivesV]
      exact ⟨_, rfl, hinges_derivative op steady hinges hinges'⟩
  | neg u ih =>
      rw [size] at enough
      have smaller : u.size ≤ limit := by omega
      obtain ⟨du, derives, hinges⟩ := ih smaller steady.operand
      rw [deriveUnder_neg, derives, outsideJumps_neg]
      exact ⟨_, rfl, hinges.neg⟩
  | call name arguments ih =>
      rw [size] at enough
      obtain ⟨f, rfl, fits⟩ := steady.root.inArity
      obtain ⟨below, rfl⟩ : ∃ below, limit = below + 1 := ⟨limit - 1, by omega⟩
      rw [deriveUnder_call, ruleUnder_unhidden (Table.get?_empty _)]
      apply isHinged_rule fits steady
      intro a inside
      have smaller := size_le_total inside
      exact ih a inside (by omega) (steady.argument inside)

theorem not_mem_variableNames (t : Expr) (x : String) :
    x ∉ t.variableNames ↔ t.Everywhere (· ≠ .var x) := by
  rw [mem_variableNames, everywhere_iff_forall_node]
  exact ⟨fun absent n inside same => absent (same ▸ inside), fun others inside => others _ inside rfl⟩

theorem steady_of_absent {t : Expr} (simplified : (simplify false level t).tree = t)
    (finite : t.Everywhere HasFiniteValue) (inArity : t.Everywhere CallsInArity)
    (absent : x ∉ t.variableNames) (library : t.Everywhere LibraryHolds) :
    t.Everywhere (IsSteady x) := by
  have stands : t.Everywhere (Stands false) := simplified ▸ kept_simplify level t
  rw [not_mem_variableNames] at absent
  rw [everywhere_iff_forall_node] at stands finite inArity absent library ⊢
  intro n inside
  exact ⟨stands n inside, finite n inside, inArity n inside, absent n inside, library n inside⟩

end

/-- The derivative of a simplified expression by a variable that does not occur in it. Let its constants be
finite and its calls be of built-in functions, with as many arguments as these take. The derivative
exists, and it is simplified to zero, plus or minus, exactly if no divisor outside the jumps is a constant
whose square is zero in floating-point arithmetic; else what is no number is left in it. Divisors that are
no constants, bases of powers and arguments of logarithms do no harm, since a simplified expression has no
zero there. -/
theorem simplify_differentiate_absent (level : Level) (x : String) (t : Expr)
    (simplified : (simplify false level t).tree = t) (finite : t.Everywhere HasFiniteValue)
    (inArity : t.Everywhere CallsInArity) (absent : x ∉ t.variableNames)
    (library : t.Everywhere LibraryHolds) :
    ∃ d, t.differentiate x none = .ok d ∧
      ((∃ z, (simplify false level d).tree = .const z ∧ (z == 0.0) = true) ↔
        t.OutsideJumps HasSquare) ∧
      (¬ t.OutsideJumps HasSquare →
        ∃ c, .const c ∈ (simplify false level d).tree.breadthFirst ∧ c.isNaN = true) := by
  have steady := steady_of_absent simplified finite inArity absent library
  have hinged : IsHinged level (t.OutsideJumps HasSquare) (deriveUnder t.ruleLimit Context.empty x t) :=
    isHinged_deriveUnder (Nat.le_add_right _ _) steady
  obtain ⟨d, derived, hinges⟩ := hinged
  refine ⟨d, (differentiate_eq t x none).trans derived, ⟨?_, fun holds => ?_⟩, fun fails => ?_⟩
  · rintro ⟨z, constant, zero⟩
    by_contra fails
    exact (vanishes_of_constant constant zero).not_spoils (hinges.spoils fails)
  · exact (hinges.vanishes holds).constant
  · exact (spoiled_iff _).1 (hinges.spoils fails)

/-- A quotient of a variable by zero is kept. -/
theorem nextBinary_zero_divisor (x : String) :
    nextBinary false .div (.var x) (.const 0.0) = .keep := by
  have notOne : ((0.0 : Float) == 1.0) = false := by decide
  simp only [nextBinary, foldBinary, reduce, identity?, isConstant, notOne]
  rfl

/-- The greater of `x` and `y`, divided by `sign(x / 0)`, by `z`. The quotient by zero does no harm there. -/
theorem simplify_differentiate_absent_maximum :
    let t : Expr := .bin .div (.call "max" [.var "x", .var "y"])
      (.call "sign" [.bin .div (.var "x") .zero])
    (simplify false .silent t).tree = t ∧ t.Everywhere HasFiniteValue ∧
      t.Everywhere CallsInArity ∧ "z" ∉ t.variableNames ∧ t.Everywhere LibraryHolds ∧
      t.OutsideJumps HasSquare ∧ ∃ d, t.differentiate "z" none = .ok d ∧
        ∃ z, (simplify false .silent d).tree = .const z ∧ (z == 0.0) = true := by
  intro t
  have simplified : (simplify false .silent t).tree = t := by
    have greater : foldedCall? false "max" [.var "x", .var "y"] = none := rfl
    have jump : foldedCall? false "sign" [.bin .div (.var "x") (.const 0.0)] = none := rfl
    have outer : nextBinary false .div (.call "max" [.var "x", .var "y"])
        (.call "sign" [.bin .div (.var "x") (.const 0.0)]) = .keep := rfl
    simp only [t, Expr.zero, tree_simplify_bin, tree_simplify_call, trees_simplifyAll, List.map_cons,
      List.map_nil, simplify_const, simplify_var, nextBinary_zero_divisor, greater, jump,
      Option.getD_none, outer]
  have finite : t.Everywhere HasFiniteValue := by
    simp [t, Expr.zero, HasFiniteValue, Decimal.decode_zero]
  have inArity : t.Everywhere CallsInArity := by
    simp only [t, Expr.zero, everywhere_call, everywhere_bin, everywhere_var, everywhere_const,
      CallsInArity, List.forall_mem_cons, List.not_mem_nil, false_implies, implies_true, and_true,
      true_and]
    exact ⟨⟨.max, rfl, rfl⟩, ⟨.sign, rfl, rfl⟩⟩
  have absent : "z" ∉ t.variableNames := by
    rw [not_mem_variableNames]
    simp [t, Expr.zero]
  have library : t.Everywhere LibraryHolds := by
    have square : (power 0.0 2.0).isNaN = false := by decide +kernel
    simp only [t, Expr.zero, everywhere_call, everywhere_bin, everywhere_var, everywhere_const,
      LibraryHolds, List.forall_mem_cons, List.not_mem_nil, false_implies, implies_true, and_true]
    exact ⟨trivial, trivial, trivial, square⟩
  have holds : t.OutsideJumps HasSquare := by
    have greater : OutsideJumps HasSquare (.call "max" [.var "x", .var "y"]) := by
      rw [show "max" = Builtin.max.name from rfl, outsideJumps_call (by decide)]
      simp [outsideJumps_var]
    exact (outsideJumps_bin _ _ _).2 ⟨trivial, greater, outsideJumps_jump (f := .sign) (.inl rfl) _⟩
  obtain ⟨d, derived, zero, -⟩ :=
    simplify_differentiate_absent .silent "z" t simplified finite inArity absent library
  exact ⟨simplified, finite, inArity, absent, library, holds, d, derived, zero.2 holds⟩

/-- `x / 0` by `y`: the square of zero is zero, and zero by zero is no number. -/
theorem simplify_differentiate_zero_divisor :
    let t : Expr := .bin .div (.var "x") .zero
    (simplify false .silent t).tree = t ∧ t.Everywhere HasFiniteValue ∧
      t.Everywhere CallsInArity ∧ "y" ∉ t.variableNames ∧
      ∃ d, t.differentiate "y" none = .ok d ∧
        ¬ ∃ z, (simplify false .silent d).tree = .const z ∧ (z == 0.0) = true := by
  intro t
  have simplified : (simplify false .silent t).tree = t := by
    simp only [t, Expr.zero, tree_simplify_bin, simplify_const, simplify_var,
      nextBinary_zero_divisor]
  have finite : t.Everywhere HasFiniteValue := by
    simp [t, Expr.zero, HasFiniteValue, Decimal.decode_zero]
  have inArity : t.Everywhere CallsInArity := by
    simp [t, Expr.zero, CallsInArity]
  have absent : "y" ∉ t.variableNames := by
    rw [not_mem_variableNames]
    simp [t, Expr.zero]
  have derived : t.differentiate "y" none = .ok (.bin .div
      (.bin .sub (.bin .mul .zero .zero) (.bin .mul (.var "x") .zero)) (.bin .pow .zero .two)) := by
    rw [differentiate_eq, deriveUnder_bin, deriveUnder_var]
    rfl
  refine ⟨simplified, finite, inArity, absent, _, derived, ?_⟩
  rintro ⟨z, constant, zero⟩
  have zeroFactor : IsFactor .silent True .zero := by
    refine ⟨fun c folded => ?_, fun fails => absurd trivial fails⟩
    rw [Expr.zero, simplify_const] at folded
    cases folded
    decide +kernel
  have variableFactor : IsFactor .silent True (.var "x") :=
    Unfolded.isFactor fun c folded => by
      rw [simplify_var] at folded
      cases folded
  have leaf : Hinges .silent True .zero := .zero trivial
  have dividend := (leaf.mul_left zeroFactor).sub (leaf.mul_right variableFactor)
  have spoils := spoils_div_zero dividend.either (tree_square_const .silent 0.0) (by decide +kernel)
  exact (vanishes_of_constant constant zero).not_spoils spoils

end Formula.Expr
