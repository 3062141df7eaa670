import Formula.Expr.Derivative
import Formula.Parse

/-!
Derivatives of higher order. Each derivative is simplified before the next one is taken.
-/

set_option autoImplicit false

namespace Formula

/-- A derivative as it was built, and simplified. -/
structure DerivativeStep where
  derived : Expr
  simplified : Expr

namespace Engine

/-- The derivatives of an expression up to an order. The first failure ends them. -/
def derivatives (engine : Engine) (scope : Option Context) (x : String) :
    Nat → Expr → Logged (Fallible (List DerivativeStep))
  | 0, _ => ⟨.ok [], []⟩
  | order + 1, e =>
    match e.differentiate x scope with
    | .error failure => ⟨.error failure, []⟩
    | .ok derived =>
      let s := engine.simplify derived
      let more := derivatives engine scope x order s.tree
      ⟨more.value.map (⟨derived, s.tree⟩ :: ·), s.records ++ more.records⟩

end Engine

/-- The expression that is left after all steps. -/
def DerivativeStep.last (e : Expr) (steps : List DerivativeStep) : Expr :=
  (steps.getLast?.map simplified).getD e

end Formula
