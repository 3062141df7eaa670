import Formula.Function.Stock
import Formula.Proofs.Expr.Evaluation

/-!
What evaluation reads of a context: the values of the variables and the functions of the calls in the
expression, and nothing else. Two contexts that agree on these give the same value or the same failure.
A name that stands for nothing keeps the expression from having a value, and unless a function of the
context says so itself, evaluation misses no other names.
-/

set_option autoImplicit false

namespace Formula

/-! ### Two contexts -/

namespace Expr

/-- The name of a node, if it has one, stands for the same in two contexts. -/
def AgreeAt (c c' : Context) : Expr → Prop
  | .var x => c.values.get? x = c'.values.get? x
  | .call name _ => c.findFunction name = c'.findFunction name
  | .const _ | .bin .. | .neg _ => True

section

variable {strict : Bool} {c c' : Context}

theorem evaluateAll_congr {es : List Expr}
    (each : ∀ e ∈ es, evaluate strict c e = evaluate strict c' e) :
    evaluateAll strict c es = evaluateAll strict c' es := by
  induction es with
  | nil => rfl
  | cons e rest ih =>
      obtain ⟨first, others⟩ := List.forall_mem_cons.1 each
      rw [evaluateAll, evaluateAll, first, ih others]

/-- What an expression gives depends on what its names stand for. -/
theorem evaluate_congr (e : Expr) (agree : e.Everywhere (AgreeAt c c')) :
    evaluate strict c e = evaluate strict c' e := by
  induction e using Expr.induction with
  | const value => rfl
  | var x =>
      have bound : c.values.get? x = c'.values.get? x := agree.root
      rw [evaluate, evaluate, Context.variableValue, Context.variableValue, bound]
  | bin op left right first second =>
      rw [evaluate, evaluate, first agree.left, second agree.right]
  | neg a ih => rw [evaluate, evaluate, ih agree.operand]
  | call name arguments ih =>
      have found : c.findFunction name = c'.findFunction name := agree.root
      have parts : evaluateAll strict c arguments = evaluateAll strict c' arguments :=
        evaluateAll_congr fun a inside => ih a inside (agree.argument inside)
      rw [evaluate, evaluate, Context.resolve, Context.resolve, found, parts]

end

end Expr

/-! ### Names that stand for nothing -/

theorem Failure.isLookup_of_isArithmetic {failure : Failure} (refusal : failure.isArithmetic = true) :
    failure.isLookup = false := by
  cases failure with
  | arithmetic fault => rfl
  | _ => cases refusal

theorem Builtin.evaluator_eq_error {f : Builtin} {values : List Float} {failure : Failure}
    (failed : f.evaluator values = .error failure) : failure = .wordless .missingArgument := by
  match values with
  | [] => cases f <;> exact (Except.error.inj failed).symm
  | [x] =>
      cases f with
      | max => exact (Except.error.inj failed).symm
      | _ => cases failed
  | a :: b :: rest => cases f <;> cases failed

namespace Context

/-- No function of the context says of a name that it stands for nothing. -/
def FunctionsSpareNames (c : Context) : Prop :=
  ∀ name (f : Function), c.functions.get? name = some f → ∀ (values : List Float) failure,
    f.evaluator values = .error failure → failure.isLookup = false

/-- If the functions of the context spare names, so do all that a name can stand for. -/
theorem FunctionsSpareNames.apply {c : Context} (spare : c.FunctionsSpareNames) {name : String}
    {f : Function} (found : c.resolve name = .ok f) {values : List Float} {failure : Failure}
    (failed : f.apply values = .error failure) : failure.isLookup = false := by
  rcases resolve_cases found with own | ⟨b, rfl⟩
  · exact spare name f own values failure failed
  · rw [Builtin.evaluator_eq_error failed]
    rfl

theorem variableValue_eq_error {c : Context} {x : String} {failure : Failure} :
    c.variableValue x = .error failure ↔
      c.values.get? x = none ∧ failure = .unboundVariable x := by
  rw [variableValue]
  cases c.values.get? x with
  | some value => simp
  | none => simp [eq_comm]

theorem resolve_eq_error {c : Context} {name : String} {failure : Failure} :
    c.resolve name = .error failure ↔
      c.findFunction name = none ∧ failure = .unknownFunction name := by
  rw [resolve]
  cases c.findFunction name with
  | some f => simp
  | none => simp [eq_comm]

end Context

namespace Expr

/-- A failure says of the name of a node that it stands for nothing, and so it does. -/
def Reports (c : Context) (failure : Failure) : Expr → Prop
  | .var x => c.values.get? x = none ∧ failure = .unboundVariable x
  | .call name _ => c.findFunction name = none ∧ failure = .unknownFunction name
  | .const _ | .bin .. | .neg _ => False

section

variable {strict : Bool} {c : Context} {failure : Failure}

/-- An evaluation that misses a name misses that of a node. -/
theorem reports_of_evaluate (spare : c.FunctionsSpareNames) (missing : failure.isLookup = true)
    (e : Expr) (failed : evaluate strict c e = .error failure) :
    ∃ n ∈ e.breadthFirst, Reports c failure n := by
  have refuses {failure : Failure} (refusal : failure.isArithmetic = true)
      (missing : failure.isLookup = true) : False := by
    rw [Failure.isLookup_of_isArithmetic refusal] at missing
    cases missing
  -- A node that reports in a part is one of the whole.
  have lift {e part : Expr} (child : part ∈ e.children)
      (reported : ∃ n ∈ part.breadthFirst, Reports c failure n) :
      ∃ n ∈ e.breadthFirst, Reports c failure n := by
    obtain ⟨n, inside, reports⟩ := reported
    exact ⟨n, mem_breadthFirst_of_child child inside, reports⟩
  induction e using Expr.induction with
  | const value => cases failed
  | var x =>
      exact ⟨.var x, self_mem_breadthFirst _, Context.variableValue_eq_error.1 failed⟩
  | bin op left right first second =>
      rw [evaluate] at failed
      rcases bind_eq_error.1 failed with failed | ⟨a, -, failed⟩
      · exact lift (by simp [children]) (first failed)
      · rcases bind_eq_error.1 failed with failed | ⟨b, -, failed⟩
        · exact lift (by simp [children]) (second failed)
        · exact (refuses (BinaryOp.value_isArithmetic failed) missing).elim
  | neg a ih =>
      rw [evaluate] at failed
      rcases bind_eq_error.1 failed with failed | ⟨x, -, failed⟩
      · exact lift (by simp [children]) (ih failed)
      · cases failed
  | call name arguments ih =>
      rw [evaluate] at failed
      rcases bind_eq_error.1 failed with failed | ⟨f, found, failed⟩
      · exact ⟨_, self_mem_breadthFirst _, Context.resolve_eq_error.1 failed⟩
      rcases bind_eq_error.1 failed with failed | ⟨⟨⟩, -, failed⟩
      · obtain ⟨count, rfl⟩ := Arity.check_eq_error failed
        cases missing
      rcases bind_eq_error.1 failed with failed | ⟨values, -, failed⟩
      · obtain ⟨a, inside, failed⟩ := exists_of_evaluateAll_error failed
        exact lift inside (ih a inside failed)
      rcases bind_eq_error.1 failed with failed | ⟨result, -, failed⟩
      · rw [spare.apply found failed] at missing
        cases missing
      · exact (refuses (checkOverflow_isArithmetic failed) missing).elim

/-- A node whose name stands for nothing keeps the expression from having a value. -/
theorem fails_of_reports (e : Expr) {n : Expr} (inside : n ∈ e.breadthFirst)
    (reports : Reports c failure n) : ∃ other, evaluate strict c e = .error other := by
  cases outcome : evaluate strict c e with
  | error other => exact ⟨other, rfl⟩
  | ok v =>
      have readable := (everywhere_iff_forall_node e).1 (readable_of_evaluate e outcome) n inside
      cases n with
      | var x =>
          obtain ⟨value, bound⟩ := readable
          rw [Context.variableValue_eq_error.2 reports] at bound
          cases bound
      | call name arguments =>
          obtain ⟨f, found, -⟩ := readable
          rw [Context.resolve_eq_error.2 reports] at found
          cases found
      | const _ | bin _ _ _ | neg _ => exact reports.elim

end

/-- Evaluation reads what the expression names and nothing else. Contexts in which its variables have
the same values, or none, and its calls the same functions, or none, give the same value or the same
failure. If functions do not say so themselves, a failure that misses a name is about a variable or a
call of the expression whose name stands for nothing; and wherever there is one, evaluation fails. -/
theorem evaluate_reads_names (strict : Bool) (e : Expr) :
    (∀ c c' : Context, (∀ x ∈ e.variableNames, c.values.get? x = c'.values.get? x) →
      (∀ name ∈ e.functionNames, c.findFunction name = c'.findFunction name) →
      evaluate strict c e = evaluate strict c' e) ∧
    (∀ (c : Context) (failure : Failure), c.FunctionsSpareNames →
      evaluate strict c e = .error failure → failure.isLookup = true →
      (∃ x ∈ e.variableNames, c.values.get? x = none ∧ failure = .unboundVariable x) ∨
        ∃ name ∈ e.functionNames, c.findFunction name = none ∧ failure = .unknownFunction name) ∧
    ∀ c : Context, (∃ x ∈ e.variableNames, c.values.get? x = none) ∨
        (∃ name ∈ e.functionNames, c.findFunction name = none) →
      ∃ failure, evaluate strict c e = .error failure := by
  refine ⟨?_, ?_, ?_⟩
  · intro c c' values functions
    apply evaluate_congr
    rw [everywhere_iff_forall_node]
    intro n inside
    cases n with
    | var x => exact values x ((mem_variableNames e x).2 inside)
    | call name arguments => exact functions name ((mem_functionNames e name).2 ⟨arguments, inside⟩)
    | const _ | bin _ _ _ | neg _ => trivial
  · intro c failure spare failed missing
    obtain ⟨n, inside, reports⟩ := reports_of_evaluate spare missing e failed
    cases n with
    | var x => exact .inl ⟨x, (mem_variableNames e x).2 inside, reports⟩
    | call name arguments =>
        exact .inr ⟨name, (mem_functionNames e name).2 ⟨arguments, inside⟩, reports⟩
    | const _ | bin _ _ _ | neg _ => exact reports.elim
  · intro c unbound
    rcases unbound with ⟨x, inside, none⟩ | ⟨name, inside, none⟩
    · exact fails_of_reports e ((mem_variableNames e x).1 inside) ⟨none, rfl⟩
    · obtain ⟨arguments, inside⟩ := (mem_functionNames e name).1 inside
      exact fails_of_reports e inside ⟨none, rfl⟩

/-- `count(x, 1) + max(y, x)` fails for want of `y`, whatever else a context has. -/
theorem evaluate_reads_names_unbound :
    let count : Function := ⟨"count", .variadic, Evaluator.count, none, by decide⟩
    let c := Context.mk (.ofList [("x", 2.0), ("z", 7.0)]) (.ofList [("count", count)])
    let c' := Context.mk (.ofList [("u", 5.0), ("x", 2.0)])
      (.ofList [("sin", count), ("count", count)])
    let e : Expr := .bin .add (.call "count" [.var "x", .one]) (.call "max" [.var "y", .var "x"])
    (∀ x ∈ e.variableNames, c.values.get? x = c'.values.get? x) ∧
      (∀ name ∈ e.functionNames, c.findFunction name = c'.findFunction name) ∧
      c.FunctionsSpareNames ∧ evaluate false c e = .error (.unboundVariable "y") ∧
      evaluate false c e = evaluate false c' e ∧
      ((∃ x ∈ e.variableNames, c.values.get? x = none ∧
          Failure.unboundVariable "y" = .unboundVariable x) ∨
        ∃ name ∈ e.functionNames, c.findFunction name = none ∧
          Failure.unboundVariable "y" = .unknownFunction name) ∧
      ∃ failure, evaluate false c e = .error failure := by
  intro count c c' e
  have nodes : e.breadthFirst = [e, .call "count" [.var "x", .one],
      .call "max" [.var "y", .var "x"], .var "x", .one, .var "y", .var "x"] := by
    simp [e, breadthFirst, visitQueue, children, one]
  have ofVariables : ∀ x, x ∈ e.variableNames ↔ x = "x" ∨ x = "y" := by
    intro x
    rw [mem_variableNames, nodes]
    simp [e, one, or_comm]
  have ofCalls : ∀ name, name ∈ e.functionNames ↔ name = "count" ∨ name = "max" := by
    intro name
    rw [mem_functionNames, nodes]
    simp [e, one, exists_or]
  have values : ∀ x ∈ e.variableNames, c.values.get? x = c'.values.get? x := by
    intro x inside
    rcases (ofVariables x).1 inside with rfl | rfl <;> rfl
  have found : ∀ name ∈ e.functionNames, c.findFunction name = c'.findFunction name := by
    intro name inside
    rcases (ofCalls name).1 inside with rfl | rfl <;> rfl
  have spare : c.FunctionsSpareNames := by
    intro name f own values failure failed
    have same : count = f := by
      have entry : c.functions.get? name = if "count" = name then some count else none := by
        simp [c, Table.ofList]
      rw [entry, Option.ite_none_right_eq_some] at own
      exact Option.some.inj own.2
    rw [← same] at failed
    cases failed
  have failed : evaluate false c e = .error (.unboundVariable "y") := rfl
  have unbound : c.values.get? "y" = none := rfl
  have inside : "y" ∈ e.variableNames := (ofVariables "y").2 (.inr rfl)
  obtain ⟨agree, report, fails⟩ := evaluate_reads_names false e
  exact ⟨values, found, spare, failed, agree c c' values found, report c _ spare failed rfl,
    fails c (.inl ⟨"y", inside, unbound⟩)⟩

end Expr

end Formula
