import Formula.Proofs.Derivative.Scoping
import Formula.Proofs.Simplify.Mirroring

/-!
Derivatives respect equality. The derivative of a sum or a product mirrors that of the sum or product
with its operands in the other order, and the rules of the built-in functions make mirrored
derivatives of mirrored arguments. Which part has no derivative can differ, but not that one has none.
-/

set_option autoImplicit false

namespace Formula

namespace Expr

/-! ### Answers -/

/-- Two derivations end in mirrored derivatives, or both fail. -/
inductive Agree : Fallible Expr → Fallible Expr → Prop
  | ok {e f : Expr} (mirrors : Mirrors e f) : Agree (.ok e) (.ok f)
  | error (failure failure' : Failure) : Agree (.error failure) (.error failure')

section

variable {a a' b b' : Fallible Expr}

theorem Agree.map {g g' : Expr → Expr} (answers : Agree a a')
    (preserves : ∀ {d d'}, Mirrors d d' → Mirrors (g d) (g' d')) :
    Agree (do let d ← a; return g d) (do let d ← a'; return g' d) := by
  cases answers with
  | ok mirrors => exact .ok (preserves mirrors)
  | error failure failure' => exact .error failure failure'

theorem Agree.both {g g' : Expr → Expr → Expr} (first : Agree a a') (second : Agree b b')
    (preserves : ∀ {d d' t t'}, Mirrors d d' → Mirrors t t' → Mirrors (g d t) (g' d' t')) :
    Agree (do let d ← a; let t ← b; return g d t) (do let d ← a'; let t ← b'; return g' d t) := by
  cases first with
  | ok mirrors => exact second.map (preserves mirrors)
  | error failure failure' => exact .error failure failure'

/-- If two derivations are made in the other order, the other one of two failures may count. -/
theorem Agree.crossed {g g' : Expr → Expr → Expr} (first : Agree a a') (second : Agree b b')
    (preserves : ∀ {d d' t t'}, Mirrors d d' → Mirrors t t' → Mirrors (g d t) (g' t' d')) :
    Agree (do let d ← a; let t ← b; return g d t) (do let t ← b'; let d ← a'; return g' t d) := by
  cases first with
  | ok mirrors =>
      cases second with
      | ok mirrors' => exact .ok (preserves mirrors mirrors')
      | error failure failure' => exact .error failure failure'
  | error failure failure' =>
      cases second with
      | ok mirrors' => exact .error failure failure'
      | error other other' => exact .error failure other'

end

/-! ### Rules -/

section

variable {u u' v v' du du' dv dv' : Expr}

theorem Mirrors.derivative (op : BinaryOp) (first : Mirrors u u') (second : Mirrors v v')
    (derived : Mirrors du du') (derived' : Mirrors dv dv') :
    Mirrors (op.derivative u v du dv) (op.derivative u' v' du' dv') := by
  cases op with
  | add => exact .bin .add derived derived'
  | sub => exact .bin .sub derived derived'
  | mul => exact .bin .add (.bin .mul derived second) (.bin .mul first derived')
  | div =>
      exact .bin .div (.bin .sub (.bin .mul derived second) (.bin .mul first derived'))
        (.bin .pow second (Mirrors.refl .two))
  | pow =>
      have logarithm : Mirrors (.call "ln" [u]) (.call "ln" [u']) := .call "ln" (.cons first .nil)
      exact .bin .mul (.bin .pow first second) (.bin .add (.bin .mul derived' logarithm)
        (.bin .mul second (.bin .div derived first)))

theorem Mirrors.derivative_swapped {op : BinaryOp} (commutes : op.commutes = true)
    (first : Mirrors u u') (second : Mirrors v v') (derived : Mirrors du du')
    (derived' : Mirrors dv dv') :
    Mirrors (op.derivative u v du dv) (op.derivative v' u' dv' du') := by
  rcases BinaryOp.commutes_cases commutes with rfl | rfl
  · exact .swapped rfl derived derived'
  · exact .swapped rfl (.swapped rfl derived second) (.swapped rfl first derived')

end

section

/-- Mirrored expressions whose derivatives, if a rule asks for them, are mirrored or both missing. -/
def DerivedAlike (answer : Option Context → Expr → String → Fallible Expr) (a b : Expr) : Prop :=
  Mirrors a b ∧ ∀ x, Agree (answer none a x) (answer none b x)

variable {as bs : List Expr} {answer : Option Context → Expr → String → Fallible Expr}

/-- A recipe that needs a derivative goes on alike with mirrored ones. -/
theorem Agree.derivative {a b : Expr} {x : String} {next next' : Expr → Recipe Context}
    (asked : Agree (answer none a x) (answer none b x))
    (more : ∀ {d d'}, Mirrors d d' → Agree ((next d).settle answer) ((next' d').settle answer)) :
    Agree ((Recipe.derivative a x none next).settle answer)
      ((Recipe.derivative b x none next').settle answer) := by
  rw [Recipe.derivative, Recipe.derivative, Recipe.settle, Recipe.settle]
  generalize answer none a x = p, answer none b x = q at asked ⊢
  cases asked with
  | ok mirrors => exact more mirrors
  | error failure failure' => exact .error failure failure'

/-- A rule for one argument makes mirrored derivatives if it puts mirrored ones together so. -/
theorem agree_chain {outer : Expr → Expr → Expr}
    (preserves : ∀ {u u' d d'}, Mirrors u u' → Mirrors d d' → Mirrors (outer u d) (outer u' d'))
    (each : List.Forall₂ (DerivedAlike answer) as bs) (x : String) :
    Agree ((Builtin.chain outer as x).settle answer) ((Builtin.chain outer bs x).settle answer) := by
  cases each with
  | nil => exact .error _ _
  | cons head rest => exact .derivative (head.2 x) fun derived => .ok (preserves head.1 derived)

theorem Mirrors.selectBranch {a a' b b' da da' db db' : Expr} (first : Mirrors a a')
    (second : Mirrors b b') (derived : Mirrors da da') (derived' : Mirrors db db') :
    Mirrors (Builtin.selectBranch a b da db) (Builtin.selectBranch a' b' da' db') := by
  have greater : Mirrors (.call "max" [a, b]) (.call "max" [a', b']) :=
    .call "max" (.cons first (.cons second .nil))
  have dominates : Mirrors (Builtin.firstDominates a b) (Builtin.firstDominates a' b') :=
    .call "heaviside" (.cons (.neg (.bin .sub greater first)) .nil)
  exact .bin .add (.bin .mul dominates derived)
    (.bin .mul (.bin .sub (Mirrors.refl .one) dominates) derived')

theorem agree_maxRule (each : List.Forall₂ (DerivedAlike answer) as bs) (x : String) :
    Agree ((Builtin.maxRule as x).settle answer) ((Builtin.maxRule bs x).settle answer) := by
  cases each with
  | nil => exact .error _ _
  | cons first rest =>
      cases rest with
      | nil => exact .error _ _
      | cons second more =>
          cases more with
          | nil =>
              apply Agree.derivative (first.2 x)
              intro da da' derived
              apply Agree.derivative (second.2 x)
              intro db db' derived'
              exact .ok (first.1.selectBranch second.1 derived derived')
          | cons third others => exact .error _ _

/-- The rule of a built-in function makes mirrored derivatives of mirrored arguments. -/
theorem agree_rule (f : Builtin) (each : List.Forall₂ (DerivedAlike answer) as bs) (x : String) :
    Agree ((f.rule as x).settle answer) ((f.rule bs x).settle answer) := by
  cases f with
  | sin => exact agree_chain (fun u d => .bin .mul (.call "cos" (.cons u .nil)) d) each x
  | cos =>
      exact agree_chain (fun u d => .bin .mul (.neg (.call "sin" (.cons u .nil))) d) each x
  | exp => exact agree_chain (fun u d => .bin .mul (.call "exp" (.cons u .nil)) d) each x
  | ln => exact agree_chain (fun u d => .bin .div d u) each x
  | abs => exact agree_chain (fun u d => .bin .mul (.call "sign" (.cons u .nil)) d) each x
  | max => exact agree_maxRule each x
  | sign => exact .ok (.refl .zero)
  | heaviside => exact .ok (.refl .zero)

end

/-! ### Derivatives -/

/-- A node that calls no other function than the built-in one of the name. -/
def CallsBuiltin (c : Context) : Expr → Prop
  | .call name _ => c.findFunction name = (Builtin.ofName? name).map Builtin.definition
  | .const _ | .var _ | .bin .. | .neg _ => True

theorem ruleUnder_builtin {c : Context} {name : String}
    (builtin : c.findFunction name = (Builtin.ofName? name).map Builtin.definition) :
    (∃ f : Builtin, ruleUnder c name = .ok f.rule) ∨
      ruleUnder c name = .error (.undifferentiable name) := by
  rw [ruleUnder_eq, builtin]
  cases Builtin.ofName? name with
  | some f => exact .inl ⟨f, rfl⟩
  | none => exact .inr rfl

theorem agree_deriveGiven {call : String → List Expr → Fallible Expr} {p : Expr → Prop}
    (calls : ∀ name {as bs : List Expr}, List.Forall₂ Mirrors as bs →
      (Expr.call name as).Everywhere p → Agree (call name as) (call name bs))
    (x : String) {e f : Expr} (mirrors : Mirrors e f) (everywhere : e.Everywhere p) :
    Agree (deriveGiven call x e) (deriveGiven call x f) := by
  induction mirrors using Matches.induction with
  | const related => exact .ok (.refl .zero)
  | var name => exact .ok (.refl _)
  | bin op first second straight straight' =>
      apply (straight everywhere.left).both (straight' everywhere.right)
      exact fun derived derived' => .derivative op first second derived derived'
  | swapped commutes first second crossed crossed' =>
      apply (crossed everywhere.left).crossed (crossed' everywhere.right)
      exact fun derived derived' => .derivative_swapped commutes first second derived derived'
  | neg _ operand => exact (operand everywhere.operand).map fun derived => .neg derived
  | call name arguments _ => exact calls name arguments everywhere

/-- Mirrored expressions that call no other functions than the built-in ones have mirrored
derivatives, or none. -/
theorem agree_deriveUnder (limit : Nat) (c : Context) (x : String) {e f : Expr}
    (mirrors : Mirrors e f) (builtin : e.Everywhere (CallsBuiltin c)) :
    Agree (deriveUnder limit c x e) (deriveUnder limit c x f) := by
  induction limit generalizing x e f with
  | zero => exact agree_deriveGiven (fun _ _ _ _ _ => .error _ _) x mirrors builtin
  | succ limit ih =>
      refine agree_deriveGiven (fun name as bs arguments everywhere => ?_) x mirrors builtin
      rcases ruleUnder_builtin everywhere.root with ⟨g, found⟩ | none
      · rw [found]
        -- The rules ask for derivatives of arguments only, so nothing else is called further down.
        apply agree_rule
        apply forall₂_of_members arguments
        intro a inside b _ mirrors
        exact ⟨mirrors, fun y => ih y mirrors (everywhere.argument inside)⟩
      · rw [none]
        exact .error _ _

/-- Equal expressions without negative zeros are simplified to equal ones. If they call no other
functions than the built-in ones, their derivatives with respect to a variable are equal too, or
neither has one. -/
theorem simplify_differentiate_same {e f : Expr} (equal : e.same f = true)
    (positive : e.Everywhere IsNotNegativeZero) (positive' : f.Everywhere IsNotNegativeZero) :
    (∀ (strict : Bool) (level : Level),
      (simplify strict level e).tree.same (simplify strict level f).tree = true) ∧
    ∀ (x : String) (scope : Option Context),
      e.Everywhere (CallsBuiltin (scope.getD .empty)) →
      (∃ d d', e.differentiate x scope = .ok d ∧ f.differentiate x scope = .ok d' ∧
        d.same d' = true) ∨
      ∃ failure failure', e.differentiate x scope = .error failure ∧
        f.differentiate x scope = .error failure' := by
  have mirrors := mirrors_of_same equal positive positive'
  refine ⟨?_, ?_⟩
  · intro strict level
    exact same_of_mirrors (mirrors.simplify strict level)
  · intro x scope builtin
    have answers := agree_deriveUnder e.ruleLimit (scope.getD .empty) x mirrors builtin
    have limits : e.ruleLimit = f.ruleLimit := by rw [ruleLimit, ruleLimit, mirrors.size_eq]
    rw [← differentiate_eq, limits, ← differentiate_eq] at answers
    generalize e.differentiate x scope = p, f.differentiate x scope = q at answers ⊢
    cases answers with
    | ok mirrors => exact .inl ⟨_, _, rfl, rfl, same_of_mirrors mirrors⟩
    | error failure failure' => exact .inr ⟨failure, failure', rfl, rfl⟩

/-- The factors of `x ^ 2 * (sin(x) / x)` can change places. -/
theorem simplify_differentiate_same_product :
    let square : Expr := .bin .pow (.var "x") .two
    let quotient : Expr := .bin .div (.call "sin" [.var "x"]) (.var "x")
    let e : Expr := .bin .mul square quotient
    let f : Expr := .bin .mul quotient square
    e.same f = true ∧ e.Everywhere IsNotNegativeZero ∧ f.Everywhere IsNotNegativeZero ∧
      e.Everywhere (CallsBuiltin .empty) ∧
      (simplify true .silent e).tree.same (simplify true .silent f).tree = true ∧
      ∃ d d', e.differentiate "x" none = .ok d ∧ f.differentiate "x" none = .ok d' ∧
        d.same d' = true := by
  intro square quotient e f
  have equal : e.same f = true := by decide +kernel
  have two : (2.0 : Float) ≠ -0.0 := by decide +kernel
  have positive : e.Everywhere IsNotNegativeZero := by
    simp [e, square, quotient, Expr.two, IsNotNegativeZero, two]
  have positive' : f.Everywhere IsNotNegativeZero := by
    simp [f, square, quotient, Expr.two, IsNotNegativeZero, two]
  have sine : Context.empty.findFunction "sin" =
      (Builtin.ofName? "sin").map Builtin.definition := rfl
  have builtin : e.Everywhere (CallsBuiltin .empty) := by
    simp [e, square, quotient, Expr.two, CallsBuiltin, sine]
  obtain ⟨simplified, derived⟩ := simplify_differentiate_same equal positive positive'
  refine ⟨equal, positive, positive', builtin, simplified true .silent, ?_⟩
  have derives : ∃ d, e.differentiate "x" none = .ok d := ⟨_, rfl⟩
  obtain ⟨d, derives⟩ := derives
  rcases derived "x" none builtin with answers | ⟨failure, failure', fails, -⟩
  · exact answers
  · rw [derives] at fails
    cases fails

end Expr

end Formula
