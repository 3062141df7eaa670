import Formula.Function.Stock
import Formula.Proofs.Derivative.Orders
import Formula.Proofs.Expr.Evaluation

/-!
What keeps an expression from having a derivative: a call whose name stands for nothing, or for a
function without a rule. Rules visit the arguments of their call from left to right, save those of the
two built-in jumps, which disregard them. So a derivation reports the first call without a rule that is
not in an argument of a jump, and if there is none it ends in a derivative.
-/

set_option autoImplicit false

namespace Formula

/-! ### Computations that fail -/

def failureOf {α : Type} : Fallible α → Option Failure
  | .ok _ => none
  | .error failure => some failure

theorem failureOf_eq_some {α : Type} {result : Fallible α} {failure : Failure} :
    failureOf result = some failure ↔ result = .error failure := by
  cases result with
  | ok a => simp [failureOf]
  | error other => simp [failureOf]

theorem failureOf_eq_none {α : Type} {result : Fallible α} :
    failureOf result = none ↔ ∃ a, result = .ok a := by
  cases result with
  | ok a => simp [failureOf]
  | error failure => simp [failureOf]

theorem failureOf_bind {α β : Type} (first : Fallible α) {next : α → Fallible β}
    (later : Option Failure) (second : ∀ a, failureOf (next a) = later) :
    failureOf (first >>= next) = (failureOf first).or later := by
  cases first with
  | ok a => exact second a
  | error failure => rfl

namespace Context

/-- The functions of the context have no rules. -/
def FunctionsLackRules (c : Context) : Prop :=
  ∀ name (f : Function), c.functions.get? name = some f → f.rule = none

/-- A name stands for nothing, or for a function without a rule. -/
def LacksRule (c : Context) (name : String) : Prop :=
  c.findFunction name = none ∨ ∃ f, c.findFunction name = some f ∧ f.rule = none

end Context

namespace Expr

/-! ### Rules -/

section

variable {c : Context}

theorem ruleUnder_eq_error {name : String} {failure : Failure} :
    ruleUnder c name = .error failure ↔ c.LacksRule name ∧ failure = .undifferentiable name := by
  rw [ruleUnder_eq, Context.LacksRule]
  cases c.findFunction name with
  | none => simp [eq_comm]
  | some f => cases rule : f.rule <;> simp [rule, eq_comm]

/-- If the functions of the context have no rules, all rules are those of built-in functions that the
context does not hide. -/
theorem eq_builtin_of_ruleUnder {name : String} {rule : Rule Context}
    (plain : c.FunctionsLackRules) (found : ruleUnder c name = .ok rule) :
    ∃ f : Builtin, f.name = name ∧ c.functions.get? name = none ∧ rule = f.rule := by
  rcases ruleUnder_cases found with ⟨g, own, ofOwn⟩ | ⟨unhidden, f, known, same⟩
  · rw [plain name g own] at ofOwn
    cases ofOwn
  · exact ⟨f, Builtin.name_of_ofName? known, unhidden, same⟩

variable {answer : Option Context → Expr → String → Fallible Expr}

theorem failureOf_settle_derivative (u : Expr) (x : String) {next : Expr → Recipe Context}
    (later : Option Failure) (more : ∀ du, failureOf ((next du).settle answer) = later) :
    failureOf ((Recipe.derivative u x none next).settle answer) =
      (failureOf (answer none u x)).or later := by
  rw [Recipe.derivative, Recipe.settle]
  cases answer none u x with
  | ok du => exact more du
  | error failure => rfl

theorem failureOf_chain (outer : Expr → Expr → Expr) {arguments : List Expr} (x : String)
    (single : 1 = arguments.length) :
    failureOf ((Builtin.chain outer arguments x).settle answer) =
      arguments.findSome? fun a => failureOf (answer none a x) := by
  obtain ⟨u, rfl⟩ := List.length_eq_one_iff.1 single.symm
  rw [Builtin.chain, failureOf_settle_derivative u x none fun du => rfl,
    List.findSome?_singleton, Option.or_none]

theorem failureOf_maxRule {arguments : List Expr} (x : String) (pair : 2 = arguments.length) :
    failureOf ((Builtin.maxRule arguments x).settle answer) =
      arguments.findSome? fun a => failureOf (answer none a x) := by
  match arguments, pair with
  | [a, b], _ =>
      have second (da : Expr) : failureOf ((Recipe.derivative b x none fun db =>
          .done (Builtin.selectBranch a b da db)).settle answer) = failureOf (answer none b x) := by
        rw [failureOf_settle_derivative b x none fun db => rfl, Option.or_none]
      rw [Builtin.maxRule, failureOf_settle_derivative a x _ second]
      cases first : failureOf (answer none a x) with
      | none => simp [first]
      | some failure => simp [first]

/-- A rule that visits its arguments fails as the first of them that has no derivative. -/
theorem failureOf_rule {f : Builtin} (visits : f ≠ .sign ∧ f ≠ .heaviside) {arguments : List Expr}
    (x : String) (fits : f.argumentCount = arguments.length) :
    failureOf ((f.rule arguments x).settle answer) =
      arguments.findSome? fun a => failureOf (answer none a x) := by
  cases f with
  | sign => exact absurd rfl visits.1
  | heaviside => exact absurd rfl visits.2
  | max => exact failureOf_maxRule x fits
  | sin | cos | exp | ln | abs => exact failureOf_chain _ x fits

end

/-! ### Nodes outside the arguments of jumps -/

/-- A call of a built-in jump, whose rule disregards its arguments. -/
def isJumpUnder (c : Context) : Expr → Bool
  | .call name _ => (c.functions.get? name).isNone &&
      (name == Builtin.sign.name || name == Builtin.heaviside.name)
  | .const _ | .var _ | .bin .. | .neg _ => false

mutual

/-- The nodes of an expression that stand in no argument of a jump, each before its parts. -/
def exposed (c : Context) : Expr → List Expr
  | .const value => [.const value]
  | .var name => [.var name]
  | .bin op left right => .bin op left right :: (exposed c left ++ exposed c right)
  | .neg operand => .neg operand :: exposed c operand
  | .call name arguments => .call name arguments ::
      if isJumpUnder c (.call name arguments) then [] else exposedAll c arguments

def exposedAll (c : Context) : List Expr → List Expr
  | [] => []
  | e :: rest => exposed c e ++ exposedAll c rest

end

attribute [simp] exposed exposedAll

/-- A node stands in an expression, and in no argument of a jump. -/
inductive Exposes (c : Context) : Expr → Expr → Prop
  | self (e : Expr) : Exposes c e e
  | part {e part n : Expr} (shown : isJumpUnder c e = false) (inside : part ∈ e.children)
      (below : Exposes c part n) : Exposes c e n

section

variable {c : Context}

theorem exposed_eq_children (e : Expr) :
    exposed c e = e :: if isJumpUnder c e then [] else exposedAll c e.children := by
  cases e with
  | bin op left right =>
      simp [exposed, isJumpUnder, children, exposedAll]
  | neg operand => simp [exposed, isJumpUnder, children, exposedAll]
  | const value => simp [exposed, isJumpUnder, children, exposedAll]
  | var name => simp [exposed, isJumpUnder, children, exposedAll]
  | call name arguments => simp only [exposed, children]

theorem mem_exposedAll {n : Expr} {es : List Expr} :
    n ∈ exposedAll c es ↔ ∃ e ∈ es, n ∈ exposed c e := by
  induction es with
  | nil => simp [exposedAll]
  | cons e rest ih => simp [exposedAll, ih]

theorem mem_exposed {e n : Expr} : n ∈ exposed c e ↔ Exposes c e n := by
  constructor
  · intro inside
    induction e using children_induction with
    | step e ih =>
        rw [exposed_eq_children] at inside
        rcases List.mem_cons.1 inside with rfl | below
        · exact .self n
        · cases shown : isJumpUnder c e with
          | true => simp [shown] at below
          | false =>
              rw [shown] at below
              obtain ⟨part, child, found⟩ := mem_exposedAll.1 below
              exact .part shown child (ih part child found)
  · intro exposes
    induction exposes with
    | self e =>
        rw [exposed_eq_children]
        exact List.mem_cons_self
    | part shown inside _ ih =>
        rw [exposed_eq_children, shown]
        exact List.mem_cons_of_mem _ (mem_exposedAll.2 ⟨_, inside, ih⟩)

theorem exposedAll_sublist {es : List Expr}
    (each : ∀ e ∈ es, (exposed c e).Sublist (preorder e)) :
    (exposedAll c es).Sublist (preorderAll es) := by
  induction es with
  | nil => exact List.Sublist.slnil
  | cons e rest ih =>
      obtain ⟨first, others⟩ := List.forall_mem_cons.1 each
      rw [exposedAll, preorderAll]
      exact first.append (ih others)

/-- The nodes outside the arguments of jumps stand in the order in which the nodes of the expression
do. -/
theorem exposed_sublist (e : Expr) : (exposed c e).Sublist (preorder e) := by
  induction e using children_induction with
  | step e ih =>
      rw [exposed_eq_children, preorder_eq_children]
      apply List.Sublist.cons_cons
      split
      · exact List.nil_sublist _
      · exact exposedAll_sublist ih

/-- The first find in several expressions is that in the first of them that has one. -/
theorem findSome?_exposedAll {α : Type} {find first : Expr → Option α} {es : List Expr}
    (each : ∀ e ∈ es, first e = (exposed c e).findSome? find) :
    es.findSome? first = (exposedAll c es).findSome? find := by
  induction es with
  | nil => rfl
  | cons e rest ih =>
      obtain ⟨here, others⟩ := List.forall_mem_cons.1 each
      rw [exposedAll, List.findSome?_append, ← ih others, ← here, List.findSome?_cons]
      cases first e <;> rfl

end

/-! ### Failures of derivations -/

/-- What a derivation fails with at a node. -/
def obstacle? (c : Context) : Expr → Option Failure
  | .call name _ => failureOf (ruleUnder c name)
  | .const _ | .var _ | .bin .. | .neg _ => none

/-- A node that calls a built-in function, unless the context hides it, does so with as many arguments
as it takes. -/
def FitsBuiltin (c : Context) : Expr → Prop
  | .call name arguments => c.functions.get? name = none → ∀ f : Builtin, f.name = name →
      f.argumentCount = arguments.length
  | .const _ | .var _ | .bin .. | .neg _ => True

section

variable {c : Context}

theorem obstacle?_eq_some {n : Expr} {failure : Failure} :
    obstacle? c n = some failure ↔ ∃ name arguments, n = .call name arguments ∧
      c.LacksRule name ∧ failure = .undifferentiable name := by
  cases n with
  | call name arguments =>
      rw [obstacle?, failureOf_eq_some, ruleUnder_eq_error]
      simp
  | const _ | var _ | bin _ _ _ | neg _ => simp [obstacle?]

theorem findSome?_obstacle_eq_some {e : Expr} {failure : Failure}
    (found : (exposed c e).findSome? (obstacle? c) = some failure) :
    ∃ name arguments before after, failure = .undifferentiable name ∧
      exposed c e = before ++ .call name arguments :: after ∧ c.LacksRule name ∧
      ∀ other arguments', .call other arguments' ∈ before → ¬ c.LacksRule other := by
  obtain ⟨before, n, after, whole, obstacle, earlier⟩ := List.findSome?_eq_some_iff.1 found
  obtain ⟨name, arguments, rfl, lacks, rfl⟩ := obstacle?_eq_some.1 obstacle
  refine ⟨name, arguments, before, after, rfl, whole, lacks, ?_⟩
  intro other arguments' inside lacks'
  have obstacle' := obstacle?_eq_some.2 ⟨other, arguments', rfl, lacks', rfl⟩
  rw [earlier _ inside] at obstacle'
  cases obstacle'

theorem findSome?_obstacle_eq_none {e : Expr} :
    (exposed c e).findSome? (obstacle? c) = none ↔
      ¬ ∃ name arguments, Exposes c e (.call name arguments) ∧ c.LacksRule name := by
  rw [List.findSome?_eq_none_iff]
  constructor
  · rintro none ⟨name, arguments, exposes, lacks⟩
    have obstacle := obstacle?_eq_some.2 ⟨name, arguments, rfl, lacks, rfl⟩
    rw [none _ (mem_exposed.2 exposes)] at obstacle
    cases obstacle
  · intro none n inside
    cases found : obstacle? c n with
    | none => rfl
    | some failure =>
        obtain ⟨name, arguments, rfl, lacks, -⟩ := obstacle?_eq_some.1 found
        exact absurd ⟨name, arguments, mem_exposed.1 inside, lacks⟩ none

/-- A derivation fails as the first node does that stands in no argument of a jump and has no rule. -/
theorem failureOf_deriveUnder (plain : c.FunctionsLackRules) {limit : Nat} {e : Expr} (x : String)
    (enough : e.size ≤ limit) (fits : e.Everywhere (FitsBuiltin c)) :
    failureOf (deriveUnder limit c x e) = (exposed c e).findSome? (obstacle? c) := by
  induction e using Expr.induction generalizing limit with
  | const value => rw [deriveUnder_const]; rfl
  | var name => rw [deriveUnder_var]; rfl
  | bin op u v first second =>
      rw [size] at enough
      have derivedLeft := first (show u.size ≤ limit by omega) fits.left
      have derivedRight := second (show v.size ≤ limit by omega) fits.right
      rw [deriveUnder_bin, exposed, List.findSome?_cons_of_isNone (by rfl), List.findSome?_append,
        ← derivedLeft, ← derivedRight]
      apply failureOf_bind
      intro du
      rw [failureOf_bind _ none fun dv => rfl, Option.or_none]
  | neg u ih =>
      rw [size] at enough
      rw [deriveUnder_neg, exposed, List.findSome?_cons_of_isNone (by rfl),
        ← ih (show u.size ≤ limit by omega) fits.operand,
        failureOf_bind _ none fun du => rfl, Option.or_none]
  | call name arguments ih =>
      rw [size] at enough
      obtain ⟨below, rfl⟩ : ∃ below, limit = below + 1 := ⟨limit - 1, by omega⟩
      rw [deriveUnder_call, exposed, List.findSome?_cons, obstacle?]
      cases found : ruleUnder c name with
      | error failure => rfl
      | ok rule =>
          obtain ⟨f, rfl, hidden, rfl⟩ := eq_builtin_of_ruleUnder plain found
          change failureOf ((f.rule arguments x).settle _) = List.findSome? _ (ite _ _ _)
          by_cases jump : f = .sign ∨ f = .heaviside
          · rcases jump with rfl | rfl <;> simp [isJumpUnder, hidden, Builtin.rule, Builtin.flat,
              Recipe.settle, failureOf]
          · rw [not_or] at jump
            have visits : isJumpUnder c (.call f.name arguments) = false := by
              cases f <;> simp [isJumpUnder, Builtin.name] at jump ⊢
            rw [failureOf_rule jump x (fits.root hidden f rfl), visits]
            apply findSome?_exposedAll
            intro a inside
            have smaller := size_le_total inside
            exact ih a inside (by omega) (fits.argument inside)

end

/-- When a derivation fails. Let the functions of the context, if there is one, have no rules, and let
every call of a built-in function have as many arguments as it takes. There is no derivative exactly if
some call that stands in no argument of a jump has a name that stands for nothing, or for a function
without a rule. The failure names the first such call, each node before its parts. There are no other
failures, and without such a call there is a derivative. -/
theorem differentiate_obstructed (e : Expr) (x : String) (scope : Option Context)
    (plain : (scope.getD .empty).FunctionsLackRules)
    (fits : e.Everywhere (FitsBuiltin (scope.getD .empty))) :
    let c := scope.getD .empty
    ((∃ name, e.differentiate x scope = .error (.undifferentiable name)) ↔
      ∃ name arguments, Exposes c e (.call name arguments) ∧ c.LacksRule name) ∧
    (∀ failure, e.differentiate x scope = .error failure →
      ∃ name arguments before after, failure = .undifferentiable name ∧
        exposed c e = before ++ .call name arguments :: after ∧ c.LacksRule name ∧
        ∀ other arguments', .call other arguments' ∈ before → ¬ c.LacksRule other) ∧
    (exposed c e).Sublist (preorder e) ∧ (∀ n, n ∈ exposed c e ↔ Exposes c e n) ∧
    ((¬ ∃ name arguments, Exposes c e (.call name arguments) ∧ c.LacksRule name) →
      ∃ derived, e.differentiate x scope = .ok derived) := by
  intro c
  have outcome : failureOf (e.differentiate x scope) = (exposed c e).findSome? (obstacle? c) := by
    rw [differentiate_eq]
    exact failureOf_deriveUnder plain x (Nat.le_add_right _ _) fits
  refine ⟨⟨?_, ?_⟩, ?_, exposed_sublist e, fun n => mem_exposed, ?_⟩
  · rintro ⟨name, failed⟩
    apply Classical.byContradiction
    intro none
    rw [failed, findSome?_obstacle_eq_none.2 none] at outcome
    cases outcome
  · intro some
    cases derives : e.differentiate x scope with
    | error failure =>
        rw [derives] at outcome
        obtain ⟨name, -, -, -, rfl, -⟩ := findSome?_obstacle_eq_some outcome.symm
        exact ⟨name, rfl⟩
    | ok derived =>
        rw [derives] at outcome
        exact absurd some (findSome?_obstacle_eq_none.1 outcome.symm)
  · intro failure failed
    rw [failed] at outcome
    exact findSome?_obstacle_eq_some outcome.symm
  · intro none
    rw [← failureOf_eq_none, outcome]
    exact findSome?_obstacle_eq_none.2 none

/-- In `sign(f(x)) * max(sin(x), f(x))` the call of `f` in front is no obstacle, and the own `sin`
without a rule is the first one. -/
theorem differentiate_obstructed_hidden :
    let sine : Function := ⟨"sin", .variadic, Evaluator.count, none, by decide⟩
    let c := Context.mk .empty (.ofList [("sin", sine)])
    let f : Expr := .call "f" [.var "x"]
    let e : Expr := .bin .mul (.call "sign" [f]) (.call "max" [.call "sin" [.var "x"], f])
    c.FunctionsLackRules ∧ e.Everywhere (FitsBuiltin c) ∧
      (∃ name arguments, Exposes c e (.call name arguments) ∧ c.LacksRule name) ∧
      (∃ name, e.differentiate "x" (some c) = .error (.undifferentiable name)) ∧
      e.differentiate "x" (some c) = .error (.undifferentiable "sin") := by
  intro sine c f e
  have own (name : String) : c.functions.get? name = if "sin" = name then some sine else none := by
    simp [c, Table.ofList]
  have plain : c.FunctionsLackRules := by
    intro name g found
    rw [own, Option.ite_none_right_eq_some] at found
    rw [← Option.some.inj found.2]
  have fits : e.Everywhere (FitsBuiltin c) := by
    simp only [e, f, everywhere_bin, everywhere_call, everywhere_var, FitsBuiltin, own,
      List.forall_mem_cons, List.not_mem_nil, false_implies, implies_true, and_true]
    refine ⟨trivial, ⟨?_, ?_⟩, ?_, ?_, ?_⟩ <;> intro _ g named <;> cases g <;>
      first | rfl | exact absurd named (by decide)
  obtain ⟨obstructed, -⟩ := differentiate_obstructed e "x" (some c) plain fits
  have failed : e.differentiate "x" (some c) = .error (.undifferentiable "sin") := rfl
  exact ⟨plain, fits, obstructed.1 ⟨_, failed⟩, ⟨_, failed⟩, failed⟩

end Expr

end Formula
