import Formula.Proofs.Expr.Evaluation
import Formula.Proofs.Simplify.Rewrites

/-!
Folding and evaluation. A fold gives the value that evaluation gives, and it comes before every
rule, so that an expression with a value is simplified to this value, down to the sign of a zero.
Only calls outside the domain of their function are left.
-/

set_option autoImplicit false

namespace Formula.Expr

section

variable {strict : Bool} {level : Level} {v : Float}

/-! ### Folds -/

/-- What is folded is an operation on two constants, and it has the value. -/
theorem foldBinary_eq_value {op : BinaryOp} {left right : Expr}
    (folded : foldBinary strict op left right = .value v) :
    ∃ a b, left = .const a ∧ right = .const b ∧ op.value strict a b = .ok v := by
  unfold foldBinary at folded
  split at folded
  · next a b =>
      split at folded
      · next value =>
          cases folded
          exact ⟨a, b, rfl, rfl, value⟩
      · cases folded
  · cases folded

/-- What is folded is a call of a built-in function on constants, and it has the value. -/
theorem foldCall_eq_value {name : String} {arguments : List Expr}
    (folded : foldCall strict name arguments = .value v) :
    ∃ (f : Builtin) (values : List Float), name = f.name ∧ arguments = values.map .const ∧
      f.argumentCount = values.length ∧
      evaluate strict .empty (.call name arguments) = .ok v := by
  unfold foldCall at folded
  split at folded
  · cases folded
  · next values constants =>
      cases (constants?_eq_some_iff arguments values).1 constants
      unfold foldValues at folded
      split at folded
      · cases folded
      · next f found =>
          split at folded
          · next fits =>
              split at folded
              · cases folded
              · next result value =>
                  split at folded
                  · cases folded
                  · cases folded
                    exact ⟨f, values, (Builtin.name_of_ofName? found).symm, rfl, fits, value⟩
          · cases folded

/-- A call is not folded to what is no number, unless an argument is none. -/
theorem inDomain_of_foldCall {f : Builtin} {values : List Float}
    (folded : foldCall strict f.name (values.map .const) = .value v) :
    v.isNaN = true → values.any Float.isNaN = true := by
  intro nan
  rw [foldCall, (constants?_eq_some_iff (values.map Expr.const) values).2 rfl] at folded
  simp only [foldValues, Builtin.ofName?_name] at folded
  split at folded
  · split at folded
    · cases folded
    · split at folded
      · cases folded
      · next inside =>
          cases folded
          simpa only [nan, Bool.true_and, Bool.not_eq_true', Bool.not_eq_false] using inside
  · cases folded

theorem nextBinary_constants {op : BinaryOp} {a b : Float} (value : op.value strict a b = .ok v) :
    nextBinary strict op (.const a) (.const b) = .settle (.const v) := by
  simp only [nextBinary, foldBinary, value]

theorem foldedCall?_constants {f : Builtin} {values : List Float}
    (fits : f.argumentCount = values.length)
    (value : evaluate strict .empty (.call f.name (values.map .const)) = .ok v)
    (inDomain : v.isNaN = true → values.any Float.isNaN = true) :
    foldedCall? strict f.name (values.map .const) = some (.const v) := by
  have constants := (constants?_eq_some_iff (values.map Expr.const) values).2 rfl
  have notOutside : (v.isNaN && !values.any Float.isNaN) = false := by
    cases nan : v.isNaN with
    | false => rfl
    | true => rw [inDomain nan, Bool.not_true, Bool.and_false]
  simp only [foldedCall?, foldCall, constants, foldValues, Builtin.ofName?_name, fits, ↓reduceIte,
    value, notOutside, Bool.false_eq_true]

/-! ### Values -/

/-- A node that is no call, or a call whose value is no number only if one of its arguments is
none. -/
def InDomain (strict : Bool) : Expr → Prop
  | .call name arguments => ∀ values v, evaluateAll strict .empty arguments = .ok values →
      evaluate strict .empty (.call name arguments) = .ok v → v.isNaN = true →
        values.any Float.isNaN = true
  | .const _ | .var _ | .bin .. | .neg _ => True

/-- Arguments that are simplified to their values one by one are so together. -/
theorem trees_of_evaluateAll (es : List Expr) (values : List Float)
    (each : ∀ e ∈ es, ∀ v, evaluate strict .empty e = .ok v →
      (simplify strict level e).tree = .const v)
    (evaluated : evaluateAll strict .empty es = .ok values) :
    (simplifyAll strict level es).trees = values.map .const := by
  induction es generalizing values with
  | nil =>
      cases evaluated
      rw [simplifyAll_nil, List.map_nil]
  | cons e rest ih =>
      obtain ⟨x, first, xs, more, rfl⟩ := evaluateAll_cons_eq_ok.1 evaluated
      have others := ih xs (fun a inside => each a (List.mem_cons_of_mem e inside)) more
      simp only [simplifyAll_cons, List.map_cons, each e List.mem_cons_self x first, others]

/-- An expression that has a value, with all its calls inside their domains, is simplified to a
constant with just this value. Without bindings neither a variable nor a call of a function that is
not built in has a value, so there are none in the expression. -/
theorem simplify_of_evaluate (level : Level) (e : Expr)
    (evaluated : evaluate strict .empty e = .ok v) (inDomain : e.Everywhere (InDomain strict)) :
    (simplify strict level e).tree = .const v := by
  induction e using Expr.induction generalizing v with
  | const value =>
      cases evaluated
      rw [simplify_const]
  | var name => cases evaluated
  | neg a ih =>
      obtain ⟨x, operand, rfl⟩ := evaluate_neg_eq_ok.1 evaluated
      rw [tree_simplify_neg, ih operand inDomain.operand]
      rfl
  | call name arguments ih =>
      obtain ⟨d, found, fits, values, parts, result, applied, checked⟩ :=
        evaluate_call_eq_ok.1 evaluated
      obtain ⟨f, known, rfl⟩ := Builtin.of_resolve_empty found
      cases Builtin.name_of_ofName? known
      have trees : (simplifyAll strict level arguments).trees = values.map .const :=
        trees_of_evaluateAll arguments values
          (fun a inside x value => ih a inside value (inDomain.argument inside)) parts
      have fits : f.argumentCount = values.length := by
        rw [length_evaluateAll parts]
        simpa [Builtin.definition, Arity.accepts] using fits
      have value : evaluate strict .empty (.call f.name (values.map .const)) = .ok v := by
        rw [evaluate_builtin (by rw [List.length_map]; exact fits)
          (evaluateAll_constants strict .empty values) applied]
        exact checked
      rw [tree_simplify_call, trees, foldedCall?_constants fits value
        (inDomain.root values v parts evaluated)]
      rfl
  | bin op left right first second =>
      obtain ⟨a, leftValue, b, rightValue, value⟩ := evaluate_bin_eq_ok.1 evaluated
      -- Between two constants the fold comes before every law, also before those that lose a sign.
      rw [tree_simplify_bin, first leftValue inDomain.left, second rightValue inDomain.right,
        nextBinary_constants value]

end

/-- `max(1 / -2, 0 * -1)` is the negative zero of its second argument. -/
theorem simplify_of_evaluate_negative_zero :
    evaluate true .empty (.call "max" [.bin .div (.const 1.0) (.neg (.const 2.0)),
        .bin .mul (.const 0.0) (.neg (.const 1.0))]) = .ok (-0.0) ∧
      (simplify true .silent (.call "max" [.bin .div (.const 1.0) (.neg (.const 2.0)),
        .bin .mul (.const 0.0) (.neg (.const 1.0))])).tree = .const (-0.0) := by
  have evaluated : evaluate true .empty (.call "max" [.bin .div (.const 1.0) (.neg (.const 2.0)),
      .bin .mul (.const 0.0) (.neg (.const 1.0))]) = .ok (-0.0) := rfl
  refine ⟨evaluated, simplify_of_evaluate .silent _ evaluated ((everywhere_call _ _).2 ⟨?_, ?_⟩)⟩
  · intro values v _ value nan
    cases evaluated.symm.trans value
    exact absurd nan (by decide +kernel)
  · simp [InDomain]

end Formula.Expr
