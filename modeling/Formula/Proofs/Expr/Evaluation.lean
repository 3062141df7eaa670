import Formula.Expr.Evaluation
import Formula.Proofs.Expr.Nodes

/-!
Evaluation taken apart. A value of an expression comes from values of its parts, and without
bindings the only functions are the built-in ones, whose calls on as many values as they take can
fail only because strict arithmetic refuses the result. In plain arithmetic an expression has a value
exactly if all its names are bound and every call has as many arguments as its function takes, unless
a function of the context fails.
-/

set_option autoImplicit false

namespace Formula

/-- A computation in two parts has a result exactly if both parts have one. -/
theorem bind_eq_ok {α β : Type} {first : Fallible α} {next : α → Fallible β} {b : β} :
    first >>= next = .ok b ↔ ∃ a, first = .ok a ∧ next a = .ok b := by
  cases first with
  | error failure => simp [bind, Except.bind]
  | ok a => simp [bind, Except.bind]

/-- A computation in two parts fails if one of them does. -/
theorem bind_eq_error {α β : Type} {first : Fallible α} {next : α → Fallible β}
    {failure : Failure} :
    first >>= next = .error failure ↔
      first = .error failure ∨ ∃ a, first = .ok a ∧ next a = .error failure := by
  cases first with
  | error other => simp [bind, Except.bind]
  | ok a => simp [bind, Except.bind]

theorem checkOverflow_isArithmetic {strict : Bool} {operation : Operation} {operands : List Float}
    {result : Float} {failure : Failure}
    (refused : checkOverflow strict operation operands result = .error failure) :
    failure.isArithmetic = true := by
  rw [checkOverflow] at refused
  split at refused
  · cases refused
    rfl
  · cases refused

/-- An operation between two values fails only because strict arithmetic refuses it. -/
theorem BinaryOp.value_isArithmetic {strict : Bool} {op : BinaryOp} {a b : Float}
    {failure : Failure} (refused : op.value strict a b = .error failure) :
    failure.isArithmetic = true := by
  rw [BinaryOp.value] at refused
  split at refused
  · cases refused
    rfl
  · exact checkOverflow_isArithmetic refused

theorem BinaryOp.value_plain (op : BinaryOp) (a b : Float) :
    op.value false a b = .ok (op.plain a b) := rfl

theorem BinaryOp.value_of_bounded {strict : Bool} {op : BinaryOp} {a b : Float}
    (divisor : op.dividesByZero a b = false) (bounded : (op.plain a b).isInf = false) :
    op.value strict a b = .ok (op.plain a b) := by
  simp only [BinaryOp.value, divisor, checkOverflow, bounded, Bool.and_false, Bool.false_and,
    Bool.false_eq_true, ↓reduceIte]

theorem checkOverflow_plain (operation : Operation) (operands : List Float) (result : Float) :
    checkOverflow false operation operands result = .ok result := rfl

/-- The numbers of arguments that pass the check. -/
theorem Arity.check_eq_ok (arity : Arity) (name : String) (actual : Nat) :
    arity.check name actual = .ok () ↔ arity.accepts actual = true := by
  cases arity with
  | variadic => simp [Arity.check, Arity.accepts]
  | exactly count =>
      rw [Arity.check, Arity.accepts, beq_iff_eq]
      split
      · next same => exact iff_of_true rfl same
      · next other => exact iff_of_false (by simp) other

theorem Arity.check_eq_error {arity : Arity} {name : String} {actual : Nat} {failure : Failure}
    (unfit : arity.check name actual = .error failure) :
    ∃ count, failure = .arityMismatch name count actual := by
  cases arity with
  | variadic => cases unfit
  | exactly count =>
      rw [Arity.check] at unfit
      split at unfit
      · cases unfit
      · cases unfit
        exact ⟨count, rfl⟩

namespace Builtin

theorem name_of_ofName? {name : String} {f : Builtin} (found : ofName? name = some f) :
    f.name = name := by
  simpa using List.find?_some found

/-- The name of a built-in function stands for it unless the context has a function of this name. -/
theorem resolve_unhidden {c : Context} {f : Builtin}
    (unhidden : c.functions.get? f.name = none) : c.resolve f.name = .ok f.definition := by
  rw [Context.resolve, Context.findFunction, unhidden, ofName?_name]
  rfl

/-- Without bindings the only functions are the built-in ones. -/
theorem of_resolve_empty {name : String} {d : Function}
    (found : Context.empty.resolve name = .ok d) : ∃ f, ofName? name = some f ∧ d = definition f := by
  rw [Context.resolve, Context.findFunction, Context.empty, Table.get?_empty] at found
  cases known : ofName? name with
  | none => simp [known] at found
  | some f =>
      simp only [known, Option.map_some, Except.ok.injEq] at found
      exact ⟨f, rfl, found.symm⟩

/-- A built-in function has a value at as many arguments as it takes. -/
theorem evaluator_ok {f : Builtin} {values : List Float} (fits : f.argumentCount = values.length) :
    ∃ result, f.evaluator values = .ok result := by
  match values with
  | [] => cases f <;> cases fits
  | [x] =>
      cases f with
      | max => cases fits
      | _ => exact ⟨_, rfl⟩
  | a :: b :: rest =>
      cases f with
      | max => exact ⟨maxValue a b, rfl⟩
      | _ => simp [argumentCount] at fits

end Builtin

namespace Context

/-- Every function of the context has a value at as many arguments as it takes. -/
def FunctionsReturn (c : Context) : Prop :=
  ∀ name (f : Function), c.functions.get? name = some f → ∀ values : List Float,
    f.arity.accepts values.length = true → ∃ result, f.evaluator values = .ok result

theorem functionsReturn_singleton (values : Table Float) (name : String) (f : Function)
    (returns : ∀ values : List Float, f.arity.accepts values.length = true →
      ∃ result, f.evaluator values = .ok result) :
    (Context.mk values (.ofList [(name, f)])).FunctionsReturn := by
  intro other g found
  have own : (Context.mk values (.ofList [(name, f)])).functions.get? other =
      if name = other then some f else none := by
    simp [Table.ofList]
  rw [own, Option.ite_none_right_eq_some] at found
  cases found.2
  exact returns

/-- A name stands for a function of the context or for a built-in one. -/
theorem resolve_cases {c : Context} {name : String} {f : Function}
    (found : c.resolve name = .ok f) :
    c.functions.get? name = some f ∨ ∃ b : Builtin, f = b.definition := by
  rw [resolve, findFunction] at found
  cases own : c.functions.get? name with
  | some g =>
      simp only [own, Except.ok.injEq] at found
      exact .inl (congrArg some found)
  | none =>
      cases known : Builtin.ofName? name with
      | some b =>
          simp only [own, known, Option.map_some, Except.ok.injEq] at found
          exact .inr ⟨b, found.symm⟩
      | none => simp [own, known] at found

theorem resolve_builtin {c : Context} {f : Builtin} {d : Function}
    (found : c.resolve f.name = .ok d) : c.functions.get? f.name = some d ∨ d = f.definition := by
  rw [resolve, findFunction, Builtin.ofName?_name] at found
  cases own : c.functions.get? f.name with
  | some g =>
      simp only [own, Except.ok.injEq] at found
      exact .inl (congrArg some found)
  | none =>
      simp only [own, Option.map_some, Except.ok.injEq] at found
      exact .inr found.symm

theorem resolve_own {c : Context} {name : String} {g : Function}
    (own : c.functions.get? name = some g) : c.resolve name = .ok g := by
  rw [resolve, findFunction, own]

theorem FunctionsReturn.apply_ok {c : Context} (returns : c.FunctionsReturn) {name : String}
    {f : Function} (found : c.resolve name = .ok f) {values : List Float}
    (fits : f.arity.accepts values.length = true) : ∃ result, f.apply values = .ok result := by
  rcases resolve_cases found with own | ⟨b, rfl⟩
  · exact returns name f own values fits
  · exact Builtin.evaluator_ok (by simpa [Builtin.definition, Arity.accepts] using fits)

end Context

namespace Expr

section

variable {strict : Bool} {c : Context} {v : Float}

theorem evaluate_bin_eq_ok {op : BinaryOp} {left right : Expr} :
    evaluate strict c (.bin op left right) = .ok v ↔
      ∃ a, evaluate strict c left = .ok a ∧ ∃ b, evaluate strict c right = .ok b ∧
        op.value strict a b = .ok v := by
  rw [evaluate]
  simp only [bind_eq_ok]

theorem evaluate_neg_eq_ok {a : Expr} :
    evaluate strict c (.neg a) = .ok v ↔ ∃ x, evaluate strict c a = .ok x ∧ v = -x := by
  rw [evaluate, bind_eq_ok]
  simp only [pure, Except.pure, Except.ok.injEq, eq_comm]

theorem evaluate_call_eq_ok {name : String} {arguments : List Expr} :
    evaluate strict c (.call name arguments) = .ok v ↔
      ∃ d, c.resolve name = .ok d ∧ d.arity.accepts arguments.length = true ∧
        ∃ values, evaluateAll strict c arguments = .ok values ∧
          ∃ result, d.apply values = .ok result ∧
            checkOverflow strict (.function name) values result = .ok v := by
  rw [evaluate]
  simp only [bind_eq_ok]
  constructor
  · rintro ⟨d, found, ⟨⟩, fits, more⟩
    exact ⟨d, found, (d.arity.check_eq_ok name _).1 fits, more⟩
  · rintro ⟨d, found, fits, more⟩
    exact ⟨d, found, (), (d.arity.check_eq_ok name _).2 fits, more⟩

theorem evaluateAll_cons_eq_ok {e : Expr} {rest : List Expr} {values : List Float} :
    evaluateAll strict c (e :: rest) = .ok values ↔
      ∃ x, evaluate strict c e = .ok x ∧ ∃ xs, evaluateAll strict c rest = .ok xs ∧
        values = x :: xs := by
  rw [evaluateAll]
  simp only [bind_eq_ok, pure, Except.pure, Except.ok.injEq, eq_comm (b := values)]

/-- Several expressions have values together if each has one. -/
theorem evaluateAll_ok_iff (es : List Expr) :
    (∃ values, evaluateAll strict c es = .ok values) ↔
      ∀ e ∈ es, ∃ v, evaluate strict c e = .ok v := by
  induction es with
  | nil => simp [evaluateAll]
  | cons e rest ih =>
      rw [List.forall_mem_cons, ← ih]
      constructor
      · rintro ⟨values, evaluated⟩
        obtain ⟨x, first, xs, more, -⟩ := evaluateAll_cons_eq_ok.1 evaluated
        exact ⟨⟨x, first⟩, xs, more⟩
      · rintro ⟨⟨x, first⟩, xs, more⟩
        exact ⟨x :: xs, evaluateAll_cons_eq_ok.2 ⟨x, first, xs, more, rfl⟩⟩

/-- Expressions that keep their values one by one when they are replaced keep them together. -/
theorem evaluateAll_map {strict' : Bool} {c' : Context} (replace : Expr → Expr) (es : List Expr)
    (each : ∀ e ∈ es, ∀ v, evaluate strict c e = .ok v → evaluate strict' c' (replace e) = .ok v)
    {values : List Float} (evaluated : evaluateAll strict c es = .ok values) :
    evaluateAll strict' c' (es.map replace) = .ok values := by
  induction es generalizing values with
  | nil => exact evaluated
  | cons e rest ih =>
      obtain ⟨x, first, xs, more, rfl⟩ := evaluateAll_cons_eq_ok.1 evaluated
      exact evaluateAll_cons_eq_ok.2 ⟨x, each e List.mem_cons_self x first, xs,
        ih (fun f inside => each f (List.mem_cons_of_mem e inside)) more, rfl⟩

theorem evaluateAll_mono {strict' : Bool} {c' : Context} (es : List Expr)
    (each : ∀ e ∈ es, ∀ v, evaluate strict c e = .ok v → evaluate strict' c' e = .ok v)
    {values : List Float} (evaluated : evaluateAll strict c es = .ok values) :
    evaluateAll strict' c' es = .ok values := by
  have kept := evaluateAll_map id es each evaluated
  rwa [List.map_id] at kept

theorem exists_of_evaluateAll_error {es : List Expr} {failure : Failure}
    (failed : evaluateAll strict c es = .error failure) :
    ∃ e ∈ es, evaluate strict c e = .error failure := by
  induction es with
  | nil => cases failed
  | cons e rest ih =>
      rw [evaluateAll] at failed
      rcases bind_eq_error.1 failed with first | ⟨x, -, more⟩
      · exact ⟨e, List.mem_cons_self, first⟩
      · rcases bind_eq_error.1 more with more | ⟨xs, -, none⟩
        · obtain ⟨f, inside, other⟩ := ih more
          exact ⟨f, List.mem_cons_of_mem e inside, other⟩
        · cases none

theorem length_evaluateAll {es : List Expr} {values : List Float}
    (evaluated : evaluateAll strict c es = .ok values) : values.length = es.length := by
  induction es generalizing values with
  | nil =>
      cases evaluated
      rfl
  | cons e rest ih =>
      obtain ⟨x, -, xs, more, rfl⟩ := evaluateAll_cons_eq_ok.1 evaluated
      rw [List.length_cons, List.length_cons, ih more]

end

/-- A node whose name, if it has one, is bound in a context, to a function of as many arguments if it
is a call. -/
def IsReadable (c : Context) : Expr → Prop
  | .var x => ∃ v, c.variableValue x = .ok v
  | .call name arguments => ∃ f, c.resolve name = .ok f ∧ f.arity.accepts arguments.length = true
  | .const _ | .bin .. | .neg _ => True

/-- An expression with a value has no name that is unbound and no call that does not fit. -/
theorem readable_of_evaluate {strict : Bool} {c : Context} {v : Float} (e : Expr)
    (evaluated : evaluate strict c e = .ok v) : e.Everywhere (IsReadable c) := by
  induction e using Expr.induction generalizing v with
  | const value => exact (everywhere_const value).2 trivial
  | var x => exact (everywhere_var x).2 ⟨v, evaluated⟩
  | bin op left right first second =>
      obtain ⟨a, leftValue, b, rightValue, -⟩ := evaluate_bin_eq_ok.1 evaluated
      exact (everywhere_bin op left right).2 ⟨trivial, first leftValue, second rightValue⟩
  | neg a ih =>
      obtain ⟨x, operand, -⟩ := evaluate_neg_eq_ok.1 evaluated
      exact (everywhere_neg a).2 ⟨trivial, ih operand⟩
  | call name arguments ih =>
      obtain ⟨f, found, fits, values, parts, -⟩ := evaluate_call_eq_ok.1 evaluated
      refine (everywhere_call name arguments).2 ⟨⟨f, found, fits⟩, fun a inside => ?_⟩
      obtain ⟨x, argument⟩ := (evaluateAll_ok_iff arguments).1 ⟨values, parts⟩ a inside
      exact ih a inside argument

/-- In plain arithmetic nothing else keeps an expression from having a value. -/
theorem evaluate_of_readable {c : Context} (returns : c.FunctionsReturn) (e : Expr)
    (readable : e.Everywhere (IsReadable c)) : ∃ v, evaluate false c e = .ok v := by
  induction e using Expr.induction with
  | const value => exact ⟨value, rfl⟩
  | var x => exact readable.root
  | bin op left right first second =>
      obtain ⟨a, leftValue⟩ := first readable.left
      obtain ⟨b, rightValue⟩ := second readable.right
      exact ⟨op.plain a b, evaluate_bin_eq_ok.2 ⟨a, leftValue, b, rightValue, op.value_plain a b⟩⟩
  | neg a ih =>
      obtain ⟨x, operand⟩ := ih readable.operand
      exact ⟨-x, evaluate_neg_eq_ok.2 ⟨x, operand, rfl⟩⟩
  | call name arguments ih =>
      obtain ⟨f, found, fits⟩ := readable.root
      obtain ⟨values, parts⟩ := (evaluateAll_ok_iff arguments).2
        fun a inside => ih a inside (readable.argument inside)
      have accepted : f.arity.accepts values.length = true := by
        rw [length_evaluateAll parts]
        exact fits
      obtain ⟨result, applied⟩ := returns.apply_ok found accepted
      exact ⟨result, evaluate_call_eq_ok.2
        ⟨f, found, fits, values, parts, result, applied, checkOverflow_plain _ _ _⟩⟩

theorem evaluateAll_constants (strict : Bool) (c : Context) (values : List Float) :
    evaluateAll strict c (values.map .const) = .ok values := by
  induction values with
  | nil => rfl
  | cons v rest ih =>
      rw [List.map_cons, evaluateAll, evaluate, ih]
      rfl

/-- A call of a built-in function on as many arguments as it takes is its value, unless strict
arithmetic refuses that. -/
theorem evaluate_unhidden {strict : Bool} {c : Context} {f : Builtin} {arguments : List Expr}
    {values : List Float} {result : Float} (unhidden : c.functions.get? f.name = none)
    (fits : f.argumentCount = arguments.length)
    (evaluated : evaluateAll strict c arguments = .ok values)
    (applied : f.evaluator values = .ok result) :
    evaluate strict c (.call f.name arguments) =
      checkOverflow strict (.function f.name) values result := by
  have accepted : (Arity.exactly f.argumentCount).check f.name arguments.length = .ok () := by
    rw [Arity.check_eq_ok, Arity.accepts, beq_iff_eq]
    exact fits
  rw [evaluate, Builtin.resolve_unhidden unhidden]
  simp only [bind, Except.bind, Builtin.definition, accepted, evaluated, Definition.apply, applied]

theorem evaluate_builtin {strict : Bool} {f : Builtin} {arguments : List Expr}
    {values : List Float} {result : Float} (fits : f.argumentCount = arguments.length)
    (evaluated : evaluateAll strict .empty arguments = .ok values)
    (applied : f.evaluator values = .ok result) :
    evaluate strict .empty (.call f.name arguments) =
      checkOverflow strict (.function f.name) values result :=
  evaluate_unhidden (Table.get?_empty _) fits evaluated applied

end Expr

end Formula
