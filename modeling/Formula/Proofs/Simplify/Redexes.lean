import Formula.Proofs.Simplify.Laws
import Formula.Proofs.Simplify.NormalForm
import Formula.Proofs.Simplify.Zeros

/-!
Redexes. In plain arithmetic a node with simplified parts is kept exactly if no law has it for its left
side and it has no value of its own. So a simplified expression has no redexes, and an expression
without redexes is its own simplification.
-/

set_option autoImplicit false

namespace Formula.Expr

/-- A node that is replaced in plain arithmetic: the left side of a law, an operation or a negation of
constants, or a call of a built-in function on as many constants as it takes, unless these lie outside
its domain. -/
inductive IsRedex : Expr → Prop
  | law {e e' : Expr} (law : Law e e') : IsRedex e
  | operation (op : BinaryOp) (a b : Float) : IsRedex (.bin op (.const a) (.const b))
  | negation (a : Float) : IsRedex (.neg (.const a))
  | call {f : Builtin} {values : List Float} {v : Float} (fits : f.argumentCount = values.length)
      (applied : f.evaluator values = .ok v)
      (inDomain : v.isNaN = true → values.any Float.isNaN = true) :
      IsRedex (.call f.name (values.map .const))

section

variable {op : BinaryOp} {left right e : Expr}

/-! ### Operations -/

/-- A law that settles an operation is found, as a law of neutral and absorbing operands or as a
quotient that cancels. -/
theorem reduce_ne_none_of_settles (settles : Settles op left right e) :
    reduce op left right ≠ .none := by
  intro kept
  obtain ⟨identity, -, cancels, -⟩ := (reduce_eq_none_iff op left right).1 kept
  -- A rule before the one for the law may apply to the operation as well; either way one does.
  cases settles with
  | zeroAdd zero | addZero _ zero | subZero _ zero | zeroMul zero | mulZero _ zero | zeroDiv zero
  | powZero _ zero | zeroPow zero =>
      grind [identity?]
  | oneMul one | mulOne _ one | divOne _ one | powOne _ one | onePow one =>
      grind [identity?]
  | mulDiv k x => simp [cancelled?, isVariable] at cancels
  | mulDivLeft x k =>
      have found := cancels rfl
      rw [cancelled?] at found
      split at found
      · cases found
      · simp [isVariable] at found

theorem PowerOf.powerForm? {x : String} {a : Expr} (power : PowerOf x left a) :
    Expr.powerForm? left = some (x, a) := by
  cases power <;> rfl

/-- A law for powers of one variable is found. -/
theorem reduce_ne_none_of_regroups (regroups : Regroups op left right e) :
    reduce op left right ≠ .none := by
  intro kept
  obtain ⟨-, product, -, bases⟩ := (reduce_eq_none_iff op left right).1 kept
  cases regroups with
  | timesQuotient c power =>
      simpa [timesQuotient?, overVariable?, power.powerForm?] using (product rfl).1
  | quotientTimes c power =>
      simpa [timesQuotient?, overVariable?, power.powerForm?] using (product rfl).2
  | timesReciprocal x value c one =>
      simpa [timesQuotient?, overVariable?, Expr.powerForm?, one] using (product rfl).1
  | reciprocalTimes x value c one =>
      simpa [timesQuotient?, overVariable?, Expr.powerForm?, one] using (product rfl).2
  | product first second | quotient first second =>
      simpa [commonBase?, first.powerForm?, second.powerForm?] using bases rfl

/-- What a rule makes of an operation is the right side of a law. -/
theorem reduce_eq_none_of_no_law (none : ∀ e, ¬ Law (.bin op left right) e) :
    reduce op left right = .none := by
  cases reduced : reduce op left right with
  | none => rfl
  | settled e => exact absurd (.settles (settles_of_reduce reduced)) (none e)
  | again e =>
      rw [reduce] at reduced
      split at reduced
      · cases reduced
      · exact absurd (.regroups (regroups_of_powerRule reduced)) (none e)

theorem reduce_eq_none_iff_no_law :
    reduce op left right = .none ↔ ∀ e, ¬ Law (.bin op left right) e := by
  refine ⟨fun kept e law => ?_, reduce_eq_none_of_no_law⟩
  cases law with
  | settles settles => exact reduce_ne_none_of_settles settles kept
  | regroups regroups => exact reduce_ne_none_of_regroups regroups kept

/-- In plain arithmetic every operation on constants has a value. -/
theorem foldBinary_plain_ne_value_iff :
    (∀ value, foldBinary false op left right ≠ .value value) ↔
      ∀ a b, ¬ (left = .const a ∧ right = .const b) := by
  constructor
  · rintro kept a b ⟨rfl, rfl⟩
    exact kept (op.plain a b) rfl
  · intro others value folded
    obtain ⟨a, b, first, second, -⟩ := foldBinary_eq_value folded
    exact others a b ⟨first, second⟩

/-! ### Nodes -/

/-- In plain arithmetic a call is kept exactly if it is no call of a built-in function on as many
constants as it takes, or these lie outside its domain. -/
theorem foldedCall?_plain_eq_none_iff {name : String} {arguments : List Expr} :
    foldedCall? false name arguments = none ↔ ¬ IsRedex (.call name arguments) := by
  constructor
  · intro kept redex
    generalize call : Expr.call name arguments = e at redex
    cases redex with
    | law law => subst call; cases law
    | operation | negation => cases call
    | @call f values v fits applied inDomain =>
        cases call
        have value : evaluate false .empty (.call f.name (values.map .const)) = .ok v := by
          rw [evaluate_builtin (by rw [List.length_map]; exact fits)
            (evaluateAll_constants false .empty values) applied, checkOverflow_plain]
        rw [foldedCall?_constants fits value inDomain] at kept
        cases kept
  · intro kept
    cases folded : foldedCall? false name arguments with
    | none => rfl
    | some e =>
        exfalso
        unfold foldedCall? at folded
        split at folded
        · next v call =>
            obtain ⟨f, values, rfl, rfl, fits, value⟩ := foldCall_eq_value call
            obtain ⟨result, applied⟩ := Builtin.evaluator_ok fits
            rw [evaluate_builtin (by rw [List.length_map]; exact fits)
              (evaluateAll_constants false .empty values) applied, checkOverflow_plain] at value
            cases value
            exact kept (.call fits applied (inDomain_of_foldCall call))
        · cases folded

/-- In plain arithmetic the nodes that are kept are those that are no redexes. -/
theorem stands_plain_iff (e : Expr) : Stands false e ↔ ¬ IsRedex e := by
  cases e with
  | const value => exact iff_of_true trivial (by rintro ⟨⟨⟩⟩)
  | var name => exact iff_of_true trivial (by rintro ⟨⟨⟩⟩)
  | neg a =>
      rw [Stands]
      constructor
      · rintro kept (⟨⟨⟩⟩ | _ | _)
        · cases kept
        · cases kept
      · intro kept
        cases gone : negated? a with
        | none => rfl
        | some e =>
            rcases negated?_cases gone with ⟨value, rfl, -⟩ | rfl
            · exact absurd (.negation value) kept
            · exact absurd (.law (.negNeg e)) kept
  | call name arguments => exact foldedCall?_plain_eq_none_iff
  | bin op left right =>
      rw [Stands, nextBinary_eq_keep_iff, foldBinary_plain_ne_value_iff, reduce_eq_none_iff_no_law]
      constructor
      · rintro ⟨others, lawless⟩ redex
        generalize operation : Expr.bin op left right = e at redex
        cases redex with
        | law law => exact lawless _ (operation ▸ law)
        | operation op a b =>
            cases operation
            exact others a b ⟨rfl, rfl⟩
        | negation | call => cases operation
      · intro kept
        refine ⟨?_, fun e law => kept (.law law)⟩
        rintro a b ⟨rfl, rfl⟩
        exact kept (.operation op a b)

end

/-- In plain arithmetic simplified expressions have no redexes: nowhere in one of them is there the left
side of a law, an operation or a negation of constants, or a call of a built-in function on as many
constants as it takes, unless the result is no number though all of these are. They are the only
expressions without redexes, as each of those is its own simplification. -/
theorem simplify_redexFree (level : Level) (e : Expr) :
    (simplify false level e).tree.Everywhere (fun n => ¬ IsRedex n) ∧
      (e.Everywhere (fun n => ¬ IsRedex n) ↔ (simplify false level e).tree = e) := by
  have redexFree : (simplify false level e).tree.Everywhere fun n => ¬ IsRedex n :=
    (stands_of_rewrites (rewrites_simplify false level e)).mono fun n => (stands_plain_iff n).1
  refine ⟨redexFree, fun own => ?_, fun same => same ▸ redexFree⟩
  exact (simplify_of_stands level e (own.mono fun n => (stands_plain_iff n).2)).1

end Formula.Expr
