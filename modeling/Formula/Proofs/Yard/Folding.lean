import Formula.Proofs.Yard.Levels

/-!
Folding waiting operators. A row of operators that folds parts into a result does so above whatever
parts lie below, two rows fold one after the other, and every operator between two operands leaves
one part less. An incoming operator folds exactly the operators in front that precede it.
-/

set_option autoImplicit false

namespace Formula.Operator

theorem applyTo_cases {op : Operator} {parts result : List Expr}
    (applied : op.applyTo parts = some result) :
    (∃ a rest, op = .negate ∧ parts = a :: rest ∧ result = .neg a :: rest) ∨
      ∃ o a b rest, op = .binary o ∧ parts = b :: a :: rest ∧ result = .bin o a b :: rest := by
  cases op with
  | negate =>
      cases parts with
      | nil => cases applied
      | cons a rest =>
          cases applied
          exact .inl ⟨a, rest, rfl, rfl, rfl⟩
  | binary o =>
      match parts with
      | [] => cases applied
      | [b] => cases applied
      | b :: a :: rest =>
          cases applied
          exact .inr ⟨o, a, b, rest, rfl, rfl, rfl⟩

theorem applyTo_append {op : Operator} {parts result : List Expr} (below : List Expr)
    (applied : op.applyTo parts = some result) :
    op.applyTo (parts ++ below) = some (result ++ below) := by
  obtain ⟨a, rest, rfl, rfl, rfl⟩ | ⟨o, a, b, rest, rfl, rfl, rfl⟩ := applyTo_cases applied
  · rfl
  · rfl

theorem foldAll_append_parts {ops : List Operator} {parts result : List Expr}
    (below : List Expr) (folded : foldAll ops parts = some result) :
    foldAll ops (parts ++ below) = some (result ++ below) := by
  induction ops generalizing parts with
  | nil => cases folded; rfl
  | cons op ops ih =>
      obtain ⟨applied, step, rest⟩ := Option.bind_eq_some_iff.1 folded
      simp only [foldAll, applyTo_append below step, Option.bind_some]
      exact ih rest

/-- An incoming operator folds a row that precedes it and stops at one that does not. -/
theorem foldPreceding_of_foldAll {incoming : Operator} {ops waiting : List Operator}
    {parts result : List Expr} (precede : ∀ op ∈ ops, op.precedes incoming = true)
    (stops : ∀ op ∈ waiting.head?, op.precedes incoming = false)
    (folded : foldAll ops parts = some result) :
    incoming.foldPreceding (ops ++ waiting) parts = some (waiting, result) := by
  induction ops generalizing parts with
  | nil =>
      cases folded
      cases waiting with
      | nil => rfl
      | cons op waiting =>
          have stays : op.precedes incoming = false := stops op rfl
          simp only [List.nil_append, foldPreceding, stays, Bool.false_eq_true, ↓reduceIte]
  | cons op ops ih =>
      obtain ⟨applied, step, rest⟩ := Option.bind_eq_some_iff.1 folded
      simp only [List.cons_append, foldPreceding, precede op List.mem_cons_self, ↓reduceIte,
        step, Option.bind_some]
      exact ih (fun o inside => precede o (List.mem_cons_of_mem _ inside)) rest

/-- What an incoming operator folds is a row that precedes it, in front of those that go on waiting. -/
theorem foldAll_of_foldPreceding {incoming : Operator} {ops waiting : List Operator}
    {parts result : List Expr}
    (folded : incoming.foldPreceding ops parts = some (waiting, result)) :
    ∃ front, ops = front ++ waiting ∧ (∀ op ∈ front, op.precedes incoming = true) ∧
      (∀ op ∈ waiting.head?, op.precedes incoming = false) ∧
      foldAll front parts = some result := by
  induction ops generalizing parts with
  | nil =>
      cases folded
      exact ⟨[], rfl, List.forall_mem_nil _, nofun, rfl⟩
  | cons op ops ih =>
      rw [foldPreceding] at folded
      split at folded
      · next precedes =>
          obtain ⟨between, applied, rest⟩ := Option.bind_eq_some_iff.1 folded
          obtain ⟨front, rfl, precede, stops, more⟩ := ih rest
          refine ⟨op :: front, rfl, List.forall_mem_cons.2 ⟨precedes, precede⟩, stops, ?_⟩
          rw [foldAll, applied, Option.bind_some, more]
      · next stays =>
          cases folded
          refine ⟨[], rfl, List.forall_mem_nil _, ?_, rfl⟩
          intro o first
          cases first
          exact Bool.eq_false_iff.2 stays

theorem foldPreceding_append_parts {incoming : Operator} {ops waiting : List Operator}
    {parts result : List Expr} (below : List Expr)
    (folded : incoming.foldPreceding ops parts = some (waiting, result)) :
    incoming.foldPreceding ops (parts ++ below) = some (waiting, result ++ below) := by
  obtain ⟨front, rfl, precede, stops, applied⟩ := foldAll_of_foldPreceding folded
  exact foldPreceding_of_foldAll precede stops (foldAll_append_parts below applied)

theorem foldAll_append (ops more : List Operator) (parts : List Expr) :
    foldAll (ops ++ more) parts = (foldAll ops parts).bind (foldAll more) := by
  induction ops generalizing parts with
  | nil => rfl
  | cons op ops ih =>
      simp only [List.cons_append, foldAll, Option.bind_assoc]
      congr 1
      funext parts
      exact ih parts

/-- The operators that take two parts and give one. -/
def binaries (ops : List Operator) : Nat := ops.countP fun op => op != .negate

theorem length_applyTo {op : Operator} {parts result : List Expr}
    (applied : op.applyTo parts = some result) :
    result.length + binaries [op] = parts.length := by
  obtain ⟨a, rest, rfl, rfl, rfl⟩ | ⟨o, a, b, rest, rfl, rfl, rfl⟩ := applyTo_cases applied
  · rfl
  · rfl

theorem binaries_cons (op : Operator) (ops : List Operator) :
    binaries (op :: ops) = binaries [op] + binaries ops := by
  rw [← List.singleton_append, binaries, List.countP_append]
  rfl

theorem length_foldAll {ops : List Operator} {parts result : List Expr}
    (folded : foldAll ops parts = some result) :
    result.length + binaries ops = parts.length := by
  induction ops generalizing parts with
  | nil => cases folded; rfl
  | cons op ops ih =>
      obtain ⟨between, applied, rest⟩ := Option.bind_eq_some_iff.1 folded
      have first := length_applyTo applied
      have more := ih rest
      rw [binaries_cons]
      omega

theorem length_foldPreceding {incoming : Operator} {ops waiting : List Operator}
    {parts result : List Expr}
    (folded : incoming.foldPreceding ops parts = some (waiting, result)) :
    result.length + binaries ops = parts.length + binaries waiting := by
  obtain ⟨front, rfl, -, -, applied⟩ := foldAll_of_foldPreceding folded
  have length := length_foldAll applied
  simp only [binaries, List.countP_append] at length ⊢
  omega

theorem foldAll_eq_nil {ops : List Operator} {parts : List Expr}
    (folded : foldAll ops parts = some []) : ops = [] ∧ parts = [] := by
  induction ops generalizing parts with
  | nil => exact ⟨rfl, Option.some.inj folded⟩
  | cons op ops ih =>
      obtain ⟨between, applied, rest⟩ := Option.bind_eq_some_iff.1 folded
      obtain ⟨-, rfl⟩ := ih rest
      obtain ⟨a, more, -, -, none⟩ | ⟨o, a, b, more, -, -, none⟩ := applyTo_cases applied
      · cases none
      · cases none

/-- Nothing that waits precedes a negation or a power. -/
theorem precedes_negate (op : Operator) : op.precedes .negate = false := by
  cases op with
  | negate => rfl
  | binary op => cases op <;> rfl

theorem precedes_pow (op : Operator) : op.precedes (.binary .pow) = false := by
  cases op with
  | negate => rfl
  | binary op => cases op <;> rfl

end Formula.Operator
