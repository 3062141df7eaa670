import Formula.Proofs.Expr.Evaluation

/-!
Plain and strict arithmetic. Strict arithmetic gives no other values than plain arithmetic; it only
refuses some. The refusal is that of the first operation or call with a fault, in the order in which
plain arithmetic carries them out.
-/

set_option autoImplicit false

namespace Formula

/-- An operation or a call that was carried out on the values of its operands. -/
inductive Performed where
  | operation (op : BinaryOp) (a b : Float)
  | call (name : String) (values : List Float) (result : Float)

namespace Performed

/-- The fault that strict arithmetic finds: a divisor zero, a negative power of zero, or an infinity
where all operands are finite. -/
def fault? : Performed → Option ArithmeticFault
  | .operation op a b =>
    if op = .div ∧ b == 0.0 ∨ op = .pow ∧ a == 0.0 ∧ b < 0.0 then some (.zeroDivision op a b)
    else if (op.plain a b).isInf ∧ a.isFinite ∧ b.isFinite then
      some (.overflow (.operator op) (op.plain a b))
    else none
  | .call name values result =>
    if result.isInf ∧ ∀ v ∈ values, v.isFinite then some (.overflow (.function name) result)
    else none

end Performed

/-- A value, unless there is a fault. -/
def orFault {α : Type} (fault : Option ArithmeticFault) (value : α) : Fallible α :=
  match fault with
  | some fault => .error (.arithmetic fault)
  | none => .ok value

/-- The fault of a computation in two parts is the first one. -/
theorem orFault_bind {α β : Type} {first second : Option ArithmeticFault} {a : α} {b : β}
    {next : α → Fallible β} (goesOn : next a = orFault second b) :
    orFault first a >>= next = orFault (first.or second) b := by
  cases first with
  | none => exact goesOn
  | some fault => rfl

theorem orFault_map {α β : Type} (fault : Option ArithmeticFault) (a : α) (f : α → β) :
    (orFault fault a >>= fun a => pure (f a)) = orFault fault (f a) := by
  cases fault <;> rfl

theorem eq_of_checkOverflow {strict : Bool} {operation : Operation} {operands : List Float}
    {result v : Float} (value : checkOverflow strict operation operands result = .ok v) :
    v = result := by
  rw [checkOverflow] at value
  split at value
  · cases value
  · exact (Except.ok.inj value).symm

theorem checkOverflow_strict (name : String) (values : List Float) (result : Float) :
    checkOverflow true (.function name) values result =
      orFault (Performed.call name values result).fault? result := by
  simp only [checkOverflow, Performed.fault?, Bool.true_and, Bool.and_eq_true, List.all_eq_true]
  split <;> rfl

namespace BinaryOp

theorem dividesByZero_iff (op : BinaryOp) (a b : Float) :
    op.dividesByZero a b = true ↔
      op = .div ∧ (b == 0.0) = true ∨ op = .pow ∧ (a == 0.0) = true ∧ b < 0.0 := by
  cases op <;> simp [dividesByZero]

theorem value_strict (op : BinaryOp) (a b : Float) :
    op.value true a b = orFault (Performed.operation op a b).fault? (op.plain a b) := by
  simp only [BinaryOp.value, Performed.fault?, Bool.true_and, dividesByZero_iff]
  split
  · rfl
  · simp only [checkOverflow, Bool.true_and, Bool.and_eq_true, List.all_cons, List.all_nil,
      Bool.and_true]
    split <;> rfl

/-- Whatever the arithmetic, an operation has no other value than its plain one. -/
theorem eq_plain_of_value {strict : Bool} {op : BinaryOp} {a b v : Float}
    (value : op.value strict a b = .ok v) : v = op.plain a b := by
  rw [BinaryOp.value] at value
  split at value
  · cases value
  · exact eq_of_checkOverflow value

end BinaryOp

namespace Expr

mutual

/-- The operations and calls of an expression in the order in which they are carried out: those in
the operands first, from left to right. The operands have their values in plain arithmetic. -/
def performed (c : Context) : Expr → List Performed
  | .const _ | .var _ => []
  | .bin op left right =>
    performed c left ++ performed c right ++
      match evaluate false c left, evaluate false c right with
      | .ok a, .ok b => [.operation op a b]
      | _, _ => []
  | .neg operand => performed c operand
  | .call name arguments =>
    performedAll c arguments ++
      match evaluateAll false c arguments, evaluate false c (.call name arguments) with
      | .ok values, .ok result => [.call name values result]
      | _, _ => []

def performedAll (c : Context) : List Expr → List Performed
  | [] => []
  | e :: rest => performed c e ++ performedAll c rest

end

def firstFault? (c : Context) (e : Expr) : Option ArithmeticFault :=
  (performed c e).findSome? Performed.fault?

def firstFaultAll? (c : Context) (es : List Expr) : Option ArithmeticFault :=
  (performedAll c es).findSome? Performed.fault?

section

variable {c : Context}

theorem firstFault?_bin {op : BinaryOp} {left right : Expr} {a b : Float}
    (first : evaluate false c left = .ok a) (second : evaluate false c right = .ok b) :
    firstFault? c (.bin op left right) =
      (firstFault? c left).or
        ((firstFault? c right).or (Performed.operation op a b).fault?) := by
  rw [firstFault?, performed, first, second, List.append_assoc, List.findSome?_append,
    List.findSome?_append, List.findSome?_singleton]
  rfl

theorem firstFault?_neg (a : Expr) : firstFault? c (.neg a) = firstFault? c a := by
  simp only [firstFault?, performed]

theorem firstFault?_call {name : String} {arguments : List Expr} {values : List Float}
    {result : Float} (parts : evaluateAll false c arguments = .ok values)
    (value : evaluate false c (.call name arguments) = .ok result) :
    firstFault? c (.call name arguments) =
      (firstFaultAll? c arguments).or (Performed.call name values result).fault? := by
  rw [firstFault?, performed, parts, value, List.findSome?_append, List.findSome?_singleton]
  rfl

theorem firstFaultAll?_cons (e : Expr) (rest : List Expr) :
    firstFaultAll? c (e :: rest) = (firstFault? c e).or (firstFaultAll? c rest) := by
  rw [firstFaultAll?, performedAll, List.findSome?_append]
  rfl

/-- What strict arithmetic makes of arguments, given what it makes of each. -/
theorem evaluateAll_strict_of_plain (es : List Expr)
    (each : ∀ e ∈ es, ∀ v, evaluate false c e = .ok v →
      evaluate true c e = orFault (firstFault? c e) v)
    {values : List Float} (plain : evaluateAll false c es = .ok values) :
    evaluateAll true c es = orFault (firstFaultAll? c es) values := by
  induction es generalizing values with
  | nil =>
      cases plain
      rfl
  | cons e rest ih =>
      obtain ⟨x, first, xs, more, rfl⟩ := evaluateAll_cons_eq_ok.1 plain
      have others := ih (fun f inside => each f (List.mem_cons_of_mem e inside)) more
      rw [evaluateAll, each e List.mem_cons_self x first, firstFaultAll?_cons]
      apply orFault_bind
      rw [others, orFault_map]

/-- Strict arithmetic gives the plain value, unless one of the operations and calls has a fault. -/
theorem evaluate_strict_of_plain (e : Expr) {v : Float} (plain : evaluate false c e = .ok v) :
    evaluate true c e = orFault (firstFault? c e) v := by
  induction e using Expr.induction generalizing v with
  | const value =>
      cases plain
      rfl
  | var x => exact plain
  | bin op left right first second =>
      obtain ⟨a, leftValue, b, rightValue, value⟩ := evaluate_bin_eq_ok.1 plain
      cases BinaryOp.eq_plain_of_value value
      rw [evaluate, first leftValue, second rightValue, firstFault?_bin leftValue rightValue]
      exact orFault_bind (orFault_bind (op.value_strict a b))
  | neg a ih =>
      obtain ⟨x, operand, rfl⟩ := evaluate_neg_eq_ok.1 plain
      rw [evaluate, ih operand, orFault_map, firstFault?_neg]
  | call name arguments ih =>
      obtain ⟨f, found, fits, values, parts, result, applied, value⟩ :=
        evaluate_call_eq_ok.1 plain
      cases eq_of_checkOverflow value
      have passed := (f.arity.check_eq_ok name arguments.length).2 fits
      have strict := evaluateAll_strict_of_plain arguments (fun a inside x => ih a inside) parts
      rw [evaluate, found, firstFault?_call parts plain, strict]
      simp only [bind, Except.bind, passed]
      apply orFault_bind
      simp only [applied]
      exact checkOverflow_strict name values v

/-- A value in strict arithmetic is the value in plain arithmetic. -/
theorem evaluate_plain_of_strict (e : Expr) {v : Float} (strict : evaluate true c e = .ok v) :
    evaluate false c e = .ok v := by
  induction e using Expr.induction generalizing v with
  | const value => exact strict
  | var x => exact strict
  | bin op left right first second =>
      obtain ⟨a, leftValue, b, rightValue, value⟩ := evaluate_bin_eq_ok.1 strict
      cases BinaryOp.eq_plain_of_value value
      exact evaluate_bin_eq_ok.2
        ⟨a, first leftValue, b, second rightValue, op.value_plain a b⟩
  | neg a ih =>
      obtain ⟨x, operand, rfl⟩ := evaluate_neg_eq_ok.1 strict
      exact evaluate_neg_eq_ok.2 ⟨x, ih operand, rfl⟩
  | call name arguments ih =>
      obtain ⟨f, found, fits, values, parts, result, applied, value⟩ :=
        evaluate_call_eq_ok.1 strict
      cases eq_of_checkOverflow value
      have plainParts := evaluateAll_mono arguments (fun a inside x => ih a inside) parts
      exact evaluate_call_eq_ok.2
        ⟨f, found, fits, values, plainParts, v, applied, checkOverflow_plain _ _ _⟩

/-- Plain arithmetic refuses nothing: names that are unbound and calls that do not fit are all that
can fail. -/
theorem evaluate_plain_not_isArithmetic (returns : c.FunctionsReturn) (e : Expr)
    {failure : Failure} (failed : evaluate false c e = .error failure) :
    failure.isArithmetic = false := by
  induction e using Expr.induction with
  | const value => cases failed
  | var x =>
      rw [evaluate, Context.variableValue] at failed
      split at failed
      · cases failed
      · cases failed
        rfl
  | bin op left right first second =>
      rw [evaluate] at failed
      rcases bind_eq_error.1 failed with failed | ⟨a, -, failed⟩
      · exact first failed
      · rcases bind_eq_error.1 failed with failed | ⟨b, -, refused⟩
        · exact second failed
        · cases refused
  | neg a ih =>
      rw [evaluate] at failed
      rcases bind_eq_error.1 failed with failed | ⟨x, -, none⟩
      · exact ih failed
      · cases none
  | call name arguments ih =>
      rw [evaluate] at failed
      rcases bind_eq_error.1 failed with unknown | ⟨f, found, failed⟩
      · rw [Context.resolve] at unknown
        split at unknown
        · cases unknown
        · cases unknown
          rfl
      rcases bind_eq_error.1 failed with unfit | ⟨_, fits, failed⟩
      · obtain ⟨count, rfl⟩ := Arity.check_eq_error unfit
        rfl
      rcases bind_eq_error.1 failed with argument | ⟨values, parts, failed⟩
      · obtain ⟨a, inside, failed⟩ := exists_of_evaluateAll_error argument
        exact ih a inside failed
      rcases bind_eq_error.1 failed with failed | ⟨result, -, refused⟩
      · have accepted := (f.arity.check_eq_ok name arguments.length).1 fits
        rw [← length_evaluateAll parts] at accepted
        obtain ⟨result, applied⟩ := returns.apply_ok found accepted
        rw [applied] at failed
        cases failed
      · cases refused

end

/-- Strict arithmetic only adds failures. Plain arithmetic never fails for arithmetic reasons if the
functions of the context do not fail. A value in strict arithmetic is the plain value, and where there
is a plain value, strict arithmetic gives it too, unless an operation or a call has a fault: then it
fails with the first fault. -/
theorem evaluate_strictness (c : Context) (e : Expr) :
    (c.FunctionsReturn → ∀ failure, e.evaluate false c = .error failure →
        failure.isArithmetic = false) ∧
      (∀ v, e.evaluate true c = .ok v → e.evaluate false c = .ok v) ∧
      ∀ v, e.evaluate false c = .ok v →
        e.evaluate true c =
          match (performed c e).findSome? Performed.fault? with
          | some fault => .error (.arithmetic fault)
          | none => .ok v :=
  ⟨fun returns _ => evaluate_plain_not_isArithmetic returns e,
    fun _ => evaluate_plain_of_strict e, fun _ => evaluate_strict_of_plain e⟩

/-- In `big() / 0`, where `big()` is infinite, the overflow of the call comes first. -/
theorem evaluate_strictness_call :
    let big : Function := ⟨"big", .exactly 0, fun _ => .ok (1.0 / 0.0), none, by decide⟩
    let c := Context.mk .empty (.ofList [("big", big)])
    let e : Expr := .bin .div (.call "big" []) (.const 0.0)
    c.FunctionsReturn ∧ e.evaluate false c = .ok (1.0 / 0.0) ∧
      (∀ failure, e.evaluate false c = .error failure → failure.isArithmetic = false) ∧
      e.evaluate true c = .error (.arithmetic (.overflow (.function "big") (1.0 / 0.0))) := by
  intro big c e
  have returns : c.FunctionsReturn :=
    Context.functionsReturn_singleton _ _ _ fun _ _ => ⟨_, rfl⟩
  have plain : e.evaluate false c = .ok (1.0 / 0.0) := rfl
  have strictness := evaluate_strictness c e
  refine ⟨returns, plain, strictness.1 returns, (strictness.2.2 _ plain).trans ?_⟩
  rfl

end Expr

end Formula
