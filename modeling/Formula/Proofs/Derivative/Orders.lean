import Formula.Expr.HigherDerivative
import Formula.Proofs.Derivative.Scoping
import Formula.Proofs.Simplify.Rewrites

/-!
Derivatives of every order. The rules of the built-in functions write calls of built-in functions
only, each with as many arguments as its function takes, and so the derivative of an expression with
no other calls is such an expression again. Simplifying does not change that. Hence one can
differentiate as often as one likes, by any variables, and no variable turns up on the way.
-/

set_option autoImplicit false

namespace Formula

namespace Expr

/-- A node that is no call, or a call of a built-in function with as many arguments as it takes. -/
def CallsInArity : Expr → Prop
  | .call name arguments => ∃ f : Builtin, f.name = name ∧ f.argumentCount = arguments.length
  | .const _ | .var _ | .bin .. | .neg _ => True

/-- A node that is a known variable, if it is one, and calls a built-in function with as many
arguments as it takes, if it is a call. -/
def IsOver (known : String → Prop) : Expr → Prop
  | .var x => known x
  | .call name arguments => CallsInArity (.call name arguments)
  | .const _ | .bin .. | .neg _ => True

section

variable {known : String → Prop}

/-! ### Rules -/

theorem everywhere_builtin {f : Builtin} {arguments : List Expr}
    (fits : f.argumentCount = arguments.length)
    (each : ∀ a ∈ arguments, a.Everywhere (IsOver known)) :
    (Expr.call f.name arguments).Everywhere (IsOver known) :=
  (everywhere_call _ _).2 ⟨⟨f, rfl, fits⟩, each⟩

theorem everywhere_unary {f : Builtin} (single : f.argumentCount = 1) {u : Expr}
    (argument : u.Everywhere (IsOver known)) : (Expr.call f.name [u]).Everywhere (IsOver known) :=
  everywhere_builtin single (by simpa using argument)

/-- The derivative of an operation is made of its operands, their derivatives and a logarithm. -/
theorem everywhere_derivative (op : BinaryOp) {u v du dv : Expr}
    (first : u.Everywhere (IsOver known)) (second : v.Everywhere (IsOver known))
    (derived : du.Everywhere (IsOver known)) (derived' : dv.Everywhere (IsOver known)) :
    (op.derivative u v du dv).Everywhere (IsOver known) := by
  have logarithm : (Expr.call "ln" [u]).Everywhere (IsOver known) :=
    everywhere_unary (f := .ln) rfl first
  cases op <;>
    simp only [BinaryOp.derivative, everywhere_bin, everywhere_const, two, IsOver, first, second,
      derived, derived', logarithm, and_self]

def IsDerivative (known : String → Prop) (answer : Fallible Expr) : Prop :=
  ∃ d, answer = .ok d ∧ d.Everywhere (IsOver known)

theorem isDerivative_ok {d : Expr} (legal : d.Everywhere (IsOver known)) :
    IsDerivative known (.ok d) :=
  ⟨d, rfl, legal⟩

variable {answer : Option Context → Expr → String → Fallible Expr}

theorem settle_derivative {u d : Expr} {x : String} (derived : answer none u x = .ok d)
    (next : Expr → Recipe Context) :
    (Recipe.derivative u x none next).settle answer = (next d).settle answer := by
  rw [Recipe.derivative, Recipe.settle, derived]

/-- A recipe that needs a derivative goes on with it. -/
theorem IsDerivative.settle {u : Expr} {x : String} {next : Expr → Recipe Context}
    (asked : IsDerivative known (answer none u x))
    (more : ∀ {d}, d.Everywhere (IsOver known) → IsDerivative known ((next d).settle answer)) :
    IsDerivative known ((Recipe.derivative u x none next).settle answer) := by
  obtain ⟨d, derived, legal⟩ := asked
  rw [settle_derivative derived]
  exact more legal

/-- A rule for one argument has a derivative if it puts the argument and its derivative together
over the known variables. -/
theorem isDerivative_chain {outer : Expr → Expr → Expr} {arguments : List Expr} {x : String}
    (preserves : ∀ {u du}, u.Everywhere (IsOver known) → du.Everywhere (IsOver known) →
      (outer u du).Everywhere (IsOver known))
    (single : 1 = arguments.length)
    (each : ∀ a ∈ arguments, a.Everywhere (IsOver known) ∧ IsDerivative known (answer none a x)) :
    IsDerivative known ((Builtin.chain outer arguments x).settle answer) := by
  obtain ⟨u, rfl⟩ := List.length_eq_one_iff.1 single.symm
  obtain ⟨legal, asked⟩ := each u List.mem_cons_self
  exact asked.settle fun derived => isDerivative_ok (preserves legal derived)

theorem everywhere_selectBranch {a b da db : Expr} (first : a.Everywhere (IsOver known))
    (second : b.Everywhere (IsOver known)) (derived : da.Everywhere (IsOver known))
    (derived' : db.Everywhere (IsOver known)) :
    (Builtin.selectBranch a b da db).Everywhere (IsOver known) := by
  have greater : (Expr.call "max" [a, b]).Everywhere (IsOver known) :=
    everywhere_builtin (f := .max) rfl (by simp [first, second])
  have dominates : (Builtin.firstDominates a b).Everywhere (IsOver known) :=
    everywhere_unary (f := .heaviside) rfl (by simp [IsOver, greater, first])
  simp only [Builtin.selectBranch, everywhere_bin, everywhere_const, one, IsOver, dominates, derived,
    derived', and_self]

theorem isDerivative_maxRule {arguments : List Expr} {x : String} (pair : 2 = arguments.length)
    (each : ∀ a ∈ arguments, a.Everywhere (IsOver known) ∧ IsDerivative known (answer none a x)) :
    IsDerivative known ((Builtin.maxRule arguments x).settle answer) := by
  match arguments, pair with
  | [a, b], _ =>
      obtain ⟨first, asked⟩ := each a (by simp)
      obtain ⟨second, asked'⟩ := each b (by simp)
      apply asked.settle
      intro da derived
      apply asked'.settle
      intro db derived'
      exact isDerivative_ok (everywhere_selectBranch first second derived derived')

/-- The rule of a built-in function has a derivative at as many arguments as it takes, if each of them
has one. -/
theorem isDerivative_rule (f : Builtin) {arguments : List Expr} {x : String}
    (fits : f.argumentCount = arguments.length)
    (each : ∀ a ∈ arguments, a.Everywhere (IsOver known) ∧ IsDerivative known (answer none a x)) :
    IsDerivative known ((f.rule arguments x).settle answer) := by
  have times {g : Builtin} (single : g.argumentCount = 1) {u du : Expr}
      (argument : u.Everywhere (IsOver known)) (derived : du.Everywhere (IsOver known)) :
      (Expr.bin .mul (.call g.name [u]) du).Everywhere (IsOver known) :=
    (everywhere_bin _ _ _).2 ⟨trivial, everywhere_unary single argument, derived⟩
  cases f with
  | sin => exact isDerivative_chain (times (g := .cos) rfl) fits each
  | cos =>
      refine isDerivative_chain (fun argument derived => ?_) fits each
      have sine := everywhere_unary (f := .sin) rfl argument
      exact (everywhere_bin _ _ _).2 ⟨trivial, (everywhere_neg _).2 ⟨trivial, sine⟩, derived⟩
  | exp => exact isDerivative_chain (times (g := .exp) rfl) fits each
  | ln =>
      refine isDerivative_chain (fun argument derived => ?_) fits each
      exact (everywhere_bin _ _ _).2 ⟨trivial, derived, argument⟩
  | abs => exact isDerivative_chain (times (g := .sign) rfl) fits each
  | max => exact isDerivative_maxRule fits each
  | sign => exact isDerivative_ok ((everywhere_const _).2 trivial)
  | heaviside => exact isDerivative_ok ((everywhere_const _).2 trivial)

/-! ### Derivatives and simplified expressions -/

theorem ruleUnder_unhidden {c : Context} {f : Builtin}
    (unhidden : c.functions.get? f.name = none) : ruleUnder c f.name = .ok f.rule := by
  rw [ruleUnder_local, unhidden, Builtin.ofName?_name]
  rfl

/-- The rules ask for derivatives of arguments only, so they never nest deeper than the expression. -/
theorem isDerivative_deriveUnder {limit : Nat} {e : Expr} (x : String) (enough : e.size ≤ limit)
    (legal : e.Everywhere (IsOver known)) :
    IsDerivative known (deriveUnder limit Context.empty x e) := by
  induction e using Expr.induction generalizing limit with
  | const value =>
      rw [deriveUnder_const]
      exact isDerivative_ok ((everywhere_const _).2 trivial)
  | var name =>
      rw [deriveUnder_var]
      apply isDerivative_ok
      split <;> exact (everywhere_const _).2 trivial
  | bin op u v first second =>
      rw [size] at enough
      have smaller : u.size ≤ limit ∧ v.size ≤ limit := by omega
      obtain ⟨du, derivesU, derived⟩ := first smaller.1 legal.left
      obtain ⟨dv, derivesV, derived'⟩ := second smaller.2 legal.right
      rw [deriveUnder_bin, derivesU, derivesV]
      exact isDerivative_ok (everywhere_derivative op legal.left legal.right derived derived')
  | neg u ih =>
      rw [size] at enough
      have smaller : u.size ≤ limit := by omega
      obtain ⟨du, derives, derived⟩ := ih smaller legal.operand
      rw [deriveUnder_neg, derives]
      exact isDerivative_ok ((everywhere_neg _).2 ⟨trivial, derived⟩)
  | call name arguments ih =>
      rw [size] at enough
      obtain ⟨f, rfl, fits⟩ := legal.root
      obtain ⟨below, rfl⟩ : ∃ below, limit = below + 1 := ⟨limit - 1, by omega⟩
      rw [deriveUnder_call, ruleUnder_unhidden (Table.get?_empty _)]
      apply isDerivative_rule f fits
      intro a inside
      have smaller := size_le_total inside
      exact ⟨legal.argument inside, ih a inside (by omega) (legal.argument inside)⟩

theorem isDerivative_differentiate {e : Expr} (x : String) (legal : e.Everywhere (IsOver known)) :
    IsDerivative known (e.differentiate x none) := by
  rw [differentiate_eq]
  exact isDerivative_deriveUnder x (Nat.le_add_right _ _) legal

theorem everywhere_simplify {e : Expr} (strict : Bool) (level : Level)
    (legal : e.Everywhere (IsOver known)) :
    (simplify strict level e).tree.Everywhere (IsOver known) := by
  refine everywhere_of_rewrites (rewrites_simplify strict level e) (fun _ => trivial)
    (fun _ _ _ => trivial) (fun _ => trivial) ?_ legal
  rintro name as bs count ⟨f, named, fits⟩
  exact ⟨f, named, fits.trans count⟩

/-! ### One derivative after the other -/

end

/-- Differentiate by one variable after the other, without a context. Each step may have an engine
that simplifies the derivative before the next step. -/
def successive : List (String × Option Engine) → Expr → Fallible (List DerivativeStep)
  | [], _ => .ok []
  | (x, engine) :: rest, e => do
    let derived ← e.differentiate x none
    let next := match engine with
      | some engine => (engine.simplify derived).tree
      | none => derived
    let more ← successive rest next
    return ⟨derived, next⟩ :: more

/-- The derivatives of higher order are such a run, by one variable and with one engine. -/
theorem value_derivatives (engine : Engine) (x : String) (order : Nat) (e : Expr) :
    (engine.derivatives none x order e).value =
      successive (List.replicate order (x, some engine)) e := by
  induction order generalizing e with
  | zero => rfl
  | succ order ih =>
      rw [Engine.derivatives, List.replicate_succ, successive]
      cases e.differentiate x none with
      | error failure => rfl
      | ok derived =>
          dsimp only [bind, Except.bind]
          rw [ih]
          generalize successive _ (engine.simplify derived).tree = more
          cases more <;> rfl

/-- One step stays over the known variables, and so does the rest of the run. -/
theorem successive_over {known : String → Prop} (path : List (String × Option Engine)) (e : Expr)
    (legal : e.Everywhere (IsOver known)) :
    ∃ steps, successive path e = .ok steps ∧ steps.length = path.length ∧
      ∀ step ∈ steps, step.derived.Everywhere (IsOver known) ∧
        step.simplified.Everywhere (IsOver known) := by
  induction path generalizing e with
  | nil => exact ⟨[], rfl, rfl, by simp⟩
  | cons turn rest ih =>
      obtain ⟨x, engine⟩ := turn
      obtain ⟨derived, derives, overDerived⟩ := isDerivative_differentiate x legal
      let next := match engine with
        | some engine => (engine.simplify derived).tree
        | none => derived
      have overNext : next.Everywhere (IsOver known) := by
        cases engine with
        | none => exact overDerived
        | some engine => exact everywhere_simplify engine.settings.strict engine.level overDerived
      obtain ⟨steps, run, count, each⟩ := ih next overNext
      refine ⟨⟨derived, next⟩ :: steps, ?_, congrArg Nat.succ count, ?_⟩
      · rw [successive, derives]
        change successive rest next >>= _ = _
        rw [run]
        rfl
      · exact List.forall_mem_cons.2 ⟨⟨overDerived, overNext⟩, each⟩

theorem everywhere_own {e : Expr} (inArity : e.Everywhere CallsInArity) :
    e.Everywhere (IsOver (· ∈ e.variableNames)) := by
  rw [everywhere_iff_forall_node] at inArity ⊢
  intro n inside
  cases n with
  | var x => exact (mem_variableNames e x).2 inside
  | call name arguments => exact inArity _ inside
  | const _ | bin _ _ _ | neg _ => trivial

theorem inArity_of_over {known : String → Prop} {e : Expr} (legal : e.Everywhere (IsOver known)) :
    e.Everywhere CallsInArity ∧ ∀ x ∈ e.variableNames, known x := by
  refine ⟨legal.mono fun n holds => ?_, fun x inside => ?_⟩
  · cases n with
    | call name arguments => exact holds
    | const _ | var _ | bin _ _ _ | neg _ => trivial
  · rw [everywhere_iff_forall_node] at legal
    exact legal _ ((mem_variableNames e x).1 inside)

/-- Derivatives of every order exist. An expression whose calls are all of built-in functions, with as
many arguments as these take, can be differentiated by any variables in turn, with or without
simplifying in between. All expressions on the way are of the same kind and have no new variables. In
particular there are derivatives by one variable up to any order. -/
theorem successive_ok (e : Expr) (inArity : e.Everywhere CallsInArity) :
    (∀ path : List (String × Option Engine), ∃ steps, successive path e = .ok steps ∧
      steps.length = path.length ∧
      ∀ step ∈ steps, ∀ tree ∈ [step.derived, step.simplified],
        tree.Everywhere CallsInArity ∧ ∀ x ∈ tree.variableNames, x ∈ e.variableNames) ∧
    ∀ (engine : Engine) (x : String) (order : Nat), ∃ steps,
      (engine.derivatives none x order e).value = .ok steps ∧ steps.length = order := by
  refine ⟨fun path => ?_, fun engine x order => ?_⟩
  · obtain ⟨steps, run, count, each⟩ := successive_over path e (everywhere_own inArity)
    refine ⟨steps, run, count, fun step inside => ?_⟩
    obtain ⟨derived, simplified⟩ := each step inside
    simp only [List.forall_mem_cons, List.not_mem_nil, false_implies, implies_true, and_true]
    exact ⟨inArity_of_over derived, inArity_of_over simplified⟩
  · obtain ⟨steps, run, count, -⟩ :=
      successive_over (List.replicate order (x, some engine)) e (everywhere_own inArity)
    rw [List.length_replicate] at count
    exact ⟨steps, (value_derivatives engine x order e).trans run, count⟩

/-- The greater of `sin(x)` and `y ^ 2` by `x`, then by `y` and by `x` again. -/
theorem successive_ok_maximum :
    let e : Expr := .call "max" [.call "sin" [.var "x"], .bin .pow (.var "y") .two]
    e.Everywhere CallsInArity ∧
      ∃ steps, successive [("x", none), ("y", some .initial), ("x", none)] e = .ok steps ∧
        steps.length = 3 ∧
        ∀ step ∈ steps, ∀ tree ∈ [step.derived, step.simplified],
          tree.Everywhere CallsInArity ∧ ∀ x ∈ tree.variableNames, x ∈ e.variableNames := by
  intro e
  have inArity : e.Everywhere CallsInArity := by
    simp only [e, everywhere_call, everywhere_bin, everywhere_var, everywhere_const, two,
      CallsInArity, List.forall_mem_cons, List.not_mem_nil, false_implies, implies_true, and_true]
    exact ⟨⟨.max, rfl, rfl⟩, ⟨.sin, rfl, rfl⟩⟩
  exact ⟨inArity, (successive_ok e inArity).1 [("x", none), ("y", some .initial), ("x", none)]⟩

end Expr

end Formula
