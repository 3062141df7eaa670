import Formula.Proofs.Expr.Evaluation
import Formula.Proofs.Simplify.Rewrites

/-!
Names in a simplified expression. Simplifying may drop variables and calls and may copy them, but it
makes up none, so an expression that can be read in a context can still be read there when it is
simplified.
-/

set_option autoImplicit false

namespace Formula.Expr

/-- A node whose name, if it has one, occurs in an expression, in a call with as many arguments if it
is a call. -/
def OccursIn (e : Expr) : Expr → Prop
  | .var x => x ∈ e.variableNames
  | .call name arguments =>
    ∃ others, .call name others ∈ e.breadthFirst ∧ others.length = arguments.length
  | .const _ | .bin .. | .neg _ => True

theorem everywhere_occursIn (e : Expr) : e.Everywhere (OccursIn e) := by
  rw [everywhere_iff_forall_node]
  intro n inside
  cases n with
  | const value => trivial
  | var x => exact (mem_variableNames e x).2 inside
  | bin op left right => trivial
  | neg a => trivial
  | call name arguments => exact ⟨arguments, inside, rfl⟩

/-- A simplified expression has no variables but those of the expression, and each of its calls has
the name and the number of arguments of a call in the expression. In plain arithmetic it has a value
wherever the expression has one, as long as the functions of the context do not fail. -/
theorem simplify_names (strict : Bool) (level : Level) (e : Expr) :
    (∀ x ∈ (simplify strict level e).tree.variableNames, x ∈ e.variableNames) ∧
      (∀ name arguments, .call name arguments ∈ (simplify strict level e).tree.breadthFirst →
        ∃ others, .call name others ∈ e.breadthFirst ∧ others.length = arguments.length) ∧
      ∀ c : Context, c.FunctionsReturn → ∀ v, e.evaluate false c = .ok v →
        ∃ w, (simplify strict level e).tree.evaluate false c = .ok w := by
  have run := rewrites_simplify strict level e
  have occurs : ∀ n ∈ (simplify strict level e).tree.breadthFirst, OccursIn e n := by
    rw [← everywhere_iff_forall_node]
    refine everywhere_of_rewrites run (fun _ => trivial) (fun _ _ _ => trivial) (fun _ => trivial)
      ?_ (everywhere_occursIn e)
    rintro name as bs count ⟨others, inside, same⟩
    exact ⟨others, inside, same.trans count⟩
  refine ⟨fun x inside => ?_, fun name arguments inside => occurs _ inside, ?_⟩
  · exact occurs (.var x) ((mem_variableNames _ x).1 inside)
  · intro c returns v evaluated
    refine evaluate_of_readable returns _ (everywhere_of_rewrites run (fun _ => trivial)
      (fun _ _ _ => trivial) (fun _ => trivial) ?_ (readable_of_evaluate e evaluated))
    rintro name as bs count ⟨f, found, fits⟩
    exact ⟨f, found, count ▸ fits⟩

/-- A function `max` of one argument hides the built-in one, and `max(x) + 0 * y` loses its `y`. -/
theorem simplify_names_hidden :
    let double : Function := ⟨"max", .exactly 1, fun values => .ok (values.sum * 2.0), none, by decide⟩
    let c := Context.mk (.ofList [("x", 3.0), ("y", 4.0)]) (.ofList [("max", double)])
    let e : Expr := .bin .add (.call "max" [.var "x"]) (.bin .mul (.const 0.0) (.var "y"))
    c.FunctionsReturn ∧ e.evaluate false c = .ok 6.0 ∧
      ∃ w, (simplify false .silent e).tree.evaluate false c = .ok w := by
  intro double c e
  have returns : c.FunctionsReturn :=
    Context.functionsReturn_singleton _ _ _ fun _ _ => ⟨_, rfl⟩
  have evaluated : e.evaluate false c = .ok 6.0 := by rfl
  exact ⟨returns, evaluated, (simplify_names false .silent e).2.2 c returns _ evaluated⟩

end Formula.Expr
