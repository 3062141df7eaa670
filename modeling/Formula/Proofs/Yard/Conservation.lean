import Formula.Proofs.Yard.Names

/-!
Nothing is lost, doubled or moved. Read from left to right, the numbers and identifiers of a row are
the leaves and calls of its expression, each before its parts, and every operator of the row is one
operation of the expression. This also holds of rows that are accepted and that the grammar does not
derive. At every token the levels account for all tokens in front of it: what is not yet in a finished
part waits as an operator, as the name behind an open parenthesis, or as a name whose parenthesis comes
next.
-/

set_option autoImplicit false

namespace Formula

/-- What a number or an identifier writes: a constant, a variable or the name of a call. -/
inductive Word where
  | constant (value : Float)
  | named (name : String)
  | called (name : String)

/-- An identifier is called if an open parenthesis follows, and otherwise it stands for a number or for
a variable. -/
def Word.ofIdentifier (name : String) (opensNext : Bool) : Word :=
  if opensNext then .called name
  else match reserved? name with
    | some value => .constant value
    | none => .named name

/-! ### What a row of lexemes holds -/

namespace Lexeme

/-- The word of a lexeme. -/
def word? (opensNext : Bool) : Lexeme → Option Word
  | .number text => some (.constant (Decimal.readUnsigned text.toList))
  | .identifier name => some (.ofIdentifier name opensNext)
  | .operator _ | .leftParen | .rightParen | .comma => none

/-- The operator of a lexeme. A minus sign is a negation at the start of a row and behind an operator,
an open parenthesis or a comma. -/
def operation? (previous : Option Lexeme) : Lexeme → Option Operator
  | .operator .sub =>
    match previous with
    | none | some (.operator _) | some .leftParen | some .comma => some .negate
    | some (.number _) | some (.identifier _) | some .rightParen => some (.binary .sub)
  | .operator op => some (.binary op)
  | .number _ | .identifier _ | .leftParen | .rightParen | .comma => none

def makesNode : Lexeme → Bool
  | .number _ | .identifier _ | .operator _ => true
  | .leftParen | .rightParen | .comma => false

/-- The words of a row, in their order. -/
def words : List Lexeme → List Word
  | [] => []
  | t :: rest => (t.word? (rest.head? == some .leftParen)).toList ++ words rest

/-- The operators of a row, in their order, given what is in front of it. -/
def operations (previous : Option Lexeme) : List Lexeme → List Operator
  | [] => []
  | t :: rest => (t.operation? previous).toList ++ operations (some t) rest

theorem operation?_operator (previous : Option Lexeme) (op : BinaryOp) :
    operation? previous (.operator op) = some (operatorAfter previous op) := by
  cases op with
  | sub =>
      cases previous with
      | none => rfl
      | some t => cases t <;> rfl
  | _ => rfl

/-- A lexeme that makes a node is a word or an operator. -/
theorem length_word?_add_operation? (t : Lexeme) (opensNext : Bool) (previous : Option Lexeme) :
    (t.word? opensNext).toList.length + (t.operation? previous).toList.length =
      if t.makesNode then 1 else 0 := by
  cases t with
  | operator op => rw [operation?_operator]; rfl
  | _ => rfl

theorem length_words_add_operations (previous : Option Lexeme) (ts : List Lexeme) :
    (words ts).length + (operations previous ts).length = ts.countP makesNode := by
  induction ts generalizing previous with
  | nil => rfl
  | cons t rest ih =>
      have first := length_word?_add_operation? t (rest.head? == some .leftParen) previous
      have behind := ih (some t)
      rw [words, operations, List.length_append, List.length_append, List.countP_cons]
      omega

end Lexeme

/-! ### What expressions hold -/

namespace Expr

def word? : Expr → Option Word
  | .const value => some (.constant value)
  | .var name => some (.named name)
  | .call name _ => some (.called name)
  | .bin .. | .neg _ => none

def operation? : Expr → Option Operator
  | .bin op _ _ => some (.binary op)
  | .neg _ => some .negate
  | .const _ | .var _ | .call .. => none

def words (es : List Expr) : List Word := (preorderAll es).filterMap word?

def operations (es : List Expr) : List Operator := (preorderAll es).filterMap operation?

theorem words_append (es fs : List Expr) : words (es ++ fs) = words es ++ words fs := by
  rw [words, preorderAll_append, List.filterMap_append]
  rfl

theorem operations_append (es fs : List Expr) :
    operations (es ++ fs) = operations es ++ operations fs := by
  rw [operations, preorderAll_append, List.filterMap_append]
  rfl

theorem preorderAll_singleton (e : Expr) : preorderAll [e] = e :: preorderAll e.children := by
  rw [preorderAll, preorderAll, List.append_nil, preorder_eq_children]

theorem words_singleton (e : Expr) : words [e] = e.word?.toList ++ words e.children := by
  rw [words, preorderAll_singleton, List.filterMap_cons]
  cases e.word? <;> rfl

theorem operations_singleton (e : Expr) :
    operations [e] = e.operation?.toList ++ operations e.children := by
  rw [operations, preorderAll_singleton, List.filterMap_cons]
  cases e.operation? <;> rfl

theorem word?_ofIdentifier (name : String) :
    (ofIdentifier name).word? = some (.ofIdentifier name false) := by
  rw [ofIdentifier, Word.ofIdentifier]
  cases reserved? name <;> rfl

theorem operation?_ofIdentifier (name : String) : (ofIdentifier name).operation? = none := by
  rw [ofIdentifier]
  cases reserved? name <;> rfl

theorem children_ofIdentifier (name : String) : (ofIdentifier name).children = [] := by
  rw [ofIdentifier]
  cases reserved? name <;> rfl

/-- Every node is a word or an operation. -/
theorem length_words_add_operations (es : List Expr) :
    (words es).length + (operations es).length = (preorderAll es).length := by
  rw [words, operations]
  induction preorderAll es with
  | nil => rfl
  | cons e rest ih =>
      rw [List.filterMap_cons, List.filterMap_cons, List.length_cons]
      cases e <;> simp only [word?, operation?, List.length_cons] <;> omega

end Expr

/-! ### What folding keeps -/

namespace Operator

variable {op : Operator} {ops waiting : List Operator} {parts result : List Expr}

theorem words_applyTo (applied : op.applyTo parts = some result) :
    Expr.words result.reverse = Expr.words parts.reverse := by
  obtain ⟨a, rest, -, rfl, rfl⟩ | ⟨o, a, b, rest, -, rfl, rfl⟩ := applyTo_cases applied
  · simp only [List.reverse_cons, Expr.words_append, Expr.words_singleton (.neg a)]
    rfl
  · simp only [List.reverse_cons, List.append_assoc, List.cons_append, List.nil_append,
      Expr.words_append, Expr.words_singleton (.bin o a b)]
    rfl

theorem operations_applyTo (applied : op.applyTo parts = some result) :
    (Expr.operations result.reverse).Perm (op :: Expr.operations parts.reverse) := by
  obtain ⟨a, rest, rfl, rfl, rfl⟩ | ⟨o, a, b, rest, rfl, rfl, rfl⟩ := applyTo_cases applied
  · simp only [List.reverse_cons, Expr.operations_append, Expr.operations_singleton (.neg a)]
    exact List.perm_middle
  · simp only [List.reverse_cons, List.append_assoc, List.cons_append, List.nil_append,
      Expr.operations_append, Expr.operations_singleton (.bin o a b)]
    exact List.perm_middle

/-- So many operations come to the parts as operators are applied. -/
theorem foldAll_conserves (folded : foldAll ops parts = some result) :
    Expr.words result.reverse = Expr.words parts.reverse ∧
      (Expr.operations result.reverse).Perm (ops ++ Expr.operations parts.reverse) := by
  induction ops generalizing parts with
  | nil =>
      cases folded
      exact ⟨rfl, .refl _⟩
  | cons op ops ih =>
      obtain ⟨between, applied, rest⟩ := Option.bind_eq_some_iff.1 folded
      obtain ⟨kept, grown⟩ := ih rest
      refine ⟨kept.trans (words_applyTo applied), grown.trans ?_⟩
      exact ((operations_applyTo applied).append_left ops).trans List.perm_middle

theorem foldPreceding_conserves {incoming : Operator}
    (folded : incoming.foldPreceding ops parts = some (waiting, result)) :
    Expr.words result.reverse = Expr.words parts.reverse ∧
      (waiting ++ Expr.operations result.reverse).Perm (ops ++ Expr.operations parts.reverse) := by
  obtain ⟨front, rfl, -, -, applied⟩ := foldAll_of_foldPreceding folded
  obtain ⟨kept, grown⟩ := foldAll_conserves applied
  refine ⟨kept, ?_⟩
  rw [List.perm_iff_count]
  intro op
  have counted := grown.count_eq op
  simp only [List.count_append] at counted ⊢
  omega

end Operator

/-! ### What levels hold -/

namespace Yard

/-- The operators of a level: those that wait and those in its finished parts. -/
def Level.operations (level : Level) : List Operator :=
  level.operators ++ Expr.operations level.parts.reverse

namespace Levels

/-- The words of the levels around the innermost one, from the outermost inwards. The name of a call
stands between the parts in front of it and its arguments. -/
def outerWords : List (Opening × Level) → List Word
  | [] => []
  | (o, level) :: rest =>
    outerWords rest ++ (Expr.words level.parts.reverse ++ (o.called?.map .called).toList)

def outerOperations : List (Opening × Level) → List Operator
  | [] => []
  | (_, level) :: rest => level.operations ++ outerOperations rest

def words (s : Levels) : List Word :=
  outerWords s.outer ++
    (Expr.words s.inner.parts.reverse ++ (s.callee.map (.called ·.1)).toList)

def operations (s : Levels) : List Operator := s.inner.operations ++ outerOperations s.outer

theorem called?_behind (position : Nat) (callee : Option (String × Nat)) :
    (Opening.behind position callee).called? = callee.map Prod.fst := by
  cases callee <;> rfl

theorem words_putPart {s : Levels} (settled : s.callee = none) (e : Expr) :
    (s.putPart e).words = s.words ++ Expr.words [e] := by
  simp only [words, putPart, settled, Option.map_none, Option.toList_none, List.append_nil,
    List.reverse_cons, Expr.words_append, List.append_assoc]

theorem operations_putPart (s : Levels) (e : Expr) :
    (s.putPart e).operations.Perm (s.operations ++ Expr.operations [e]) := by
  rw [List.perm_iff_count]
  intro op
  simp only [operations, putPart, Level.operations, List.reverse_cons, Expr.operations_append,
    List.count_append]
  omega

variable {limit : Option Int} {previous : Option Lexeme} {opensNext : Bool} {s s' : Levels}

theorem Step.words {t : Token} (step : Step limit previous opensNext s t s')
    (settled : s.callee = none ∨ t.lexeme = .leftParen) :
    s'.words = s.words ++ (t.lexeme.word? opensNext).toList := by
  -- A name that is called stands last until its parenthesis opens, which is why no other token may
  -- come in between: its word would be put in front of the name.
  cases step with
  | number _ text position => exact words_putPart (settled.resolve_right (by simp)) _
  | uncalled _ name position stands =>
      rw [words_putPart (settled.resolve_right (by simp)), stands, Expr.words_singleton,
        Expr.word?_ofIdentifier, Expr.children_ofIdentifier]
      rfl
  | called _ name position opens =>
      have unnamed := settled.resolve_right (by simp)
      rw [opens]
      simp only [Levels.words, unnamed, List.append_assoc]
      rfl
  | operator _ op position folded =>
      have kept := (Operator.foldPreceding_conserves folded).1
      simp only [Levels.words, kept, Lexeme.word?, Option.toList_none, List.append_nil]
  | opening _ position room =>
      simp only [Levels.words, outerWords, called?_behind, Option.map_map, List.append_assoc]
      rfl
  | comma inner level rest callee name place opened commas position folded filled =>
      have kept := (Operator.foldAll_conserves folded).1
      have unnamed : callee = none := settled.resolve_right (by simp)
      simp only [Levels.words, outerWords, Opening.called?, kept, unnamed, Lexeme.word?,
        Option.toList_none, List.append_nil]
  | closeGroup inner level rest callee opened position folded =>
      have kept := (Operator.foldAll_conserves folded).1
      have unnamed : callee = none := settled.resolve_right (by simp)
      simp only [Levels.words, outerWords, unnamed, ← kept, List.reverse_cons,
        Expr.words_append, List.append_assoc]
      rfl
  | closeCall inner level rest callee name place opened commas position folded filled =>
      have kept := (Operator.foldAll_conserves folded).1
      have unnamed : callee = none := settled.resolve_right (by simp)
      simp only [Levels.words, outerWords, unnamed, ← kept, List.reverse_cons,
        Expr.words_append, Expr.words_singleton, List.append_assoc]
      rfl

theorem Step.operations {t : Token} (step : Step limit previous opensNext s t s') :
    s'.operations.Perm (s.operations ++ (t.lexeme.operation? previous).toList) := by
  -- Folding and closing move operators past those of other levels, so each operator is counted.
  rw [List.perm_iff_count]
  intro o
  cases step with
  | number _ text position => exact (operations_putPart s _).count_eq o
  | uncalled _ name position stands =>
      have added := operations_putPart s (.ofIdentifier name)
      rw [Expr.operations_singleton, Expr.operation?_ofIdentifier,
        Expr.children_ofIdentifier] at added
      exact added.count_eq o
  | called _ name position opens =>
      rw [Lexeme.operation?, Option.toList_none, List.append_nil]
      rfl
  | operator _ op position folded =>
      have moved := (Operator.foldPreceding_conserves folded).2.count_eq o
      rw [Lexeme.operation?_operator]
      simp only [Levels.operations, Level.operations, List.count_append, List.count_cons,
        Option.toList_some, List.count_nil] at moved ⊢
      omega
  | opening _ position room =>
      rw [Lexeme.operation?, Option.toList_none, List.append_nil]
      rfl
  | comma inner level rest callee name place opened commas position folded filled =>
      have moved := (Operator.foldAll_conserves folded).2.count_eq o
      simp only [Levels.operations, Level.operations, outerOperations, Lexeme.operation?,
        List.count_append, List.count_nil, Option.toList_none] at moved ⊢
      omega
  | closeGroup inner level rest callee opened position folded =>
      have moved := (Operator.foldAll_conserves folded).2.count_eq o
      simp only [Levels.operations, Level.operations, outerOperations, Lexeme.operation?,
        List.reverse_cons, Expr.operations_append, List.reverse_nil, List.nil_append,
        List.count_append, List.count_nil, Option.toList_none] at moved ⊢
      omega
  | closeCall inner level rest callee name place opened commas position folded filled =>
      have moved := (Operator.foldAll_conserves folded).2.count_eq o
      simp only [Levels.operations, Level.operations, outerOperations, Lexeme.operation?,
        List.reverse_cons, Expr.operations_append, Expr.operations_singleton, Expr.operation?,
        Expr.children, List.nil_append, List.count_append, List.count_nil,
        Option.toList_none] at moved ⊢
      omega

theorem startsOpen_eq (tokens : List Token) :
    startsOpen tokens = ((tokens.map Token.lexeme).head? == some .leftParen) := by
  cases tokens <;> rfl

theorem words_of_acceptAll {tokens : List Token}
    (settled : s.callee = none ∨ startsOpen tokens = true)
    (accepted : s.acceptAll limit previous tokens = .ok s') :
    s'.words = s.words ++ Lexeme.words (tokens.map Token.lexeme) := by
  induction tokens generalizing previous s with
  | nil =>
      cases accepted
      exact (List.append_nil _).symm
  | cons t rest ih =>
      obtain ⟨next, step, accepted⟩ := acceptAll_cons_ok accepted
      have first := settled.imp_right startsOpen_cons.1
      rw [ih (step.callee first) accepted, step.words first, List.map_cons, Lexeme.words,
        startsOpen_eq, List.append_assoc]

theorem operations_of_acceptAll {tokens : List Token}
    (accepted : s.acceptAll limit previous tokens = .ok s') :
    s'.operations.Perm
      (s.operations ++ Lexeme.operations previous (tokens.map Token.lexeme)) := by
  induction tokens generalizing previous s with
  | nil =>
      cases accepted
      rw [List.map_nil, Lexeme.operations, List.append_nil]
  | cons t rest ih =>
      obtain ⟨next, step, accepted⟩ := acceptAll_cons_ok accepted
      rw [List.map_cons, Lexeme.operations, ← List.append_assoc]
      exact (ih accepted).trans (step.operations.append_right _)

/-- In the end all words and all operators are in the one part that is left. -/
theorem finish_conserves {position : Nat} {e : Expr} (settled : s.callee = none)
    (finished : s.finish position = .ok e) :
    Expr.words [e] = s.words ∧ (Expr.operations [e]).Perm s.operations := by
  obtain ⟨folded, whole⟩ := finish_ok finished
  obtain ⟨kept, grown⟩ := Operator.foldAll_conserves folded
  simp only [Levels.words, Levels.operations, Level.operations, settled, whole, outerWords,
    outerOperations, Option.map_none, Option.toList_none, List.append_nil, List.nil_append]
  exact ⟨kept, grown⟩

end Levels

end Yard

/-- The expression of a row that is accepted has, in the order in which nodes stand before their parts,
the leaves and calls that the numbers and identifiers of the row write, and it has the operations that
the operators of the row write, each as often. So it has one node for every number, identifier and
operator. -/
theorem ofTokens_conserves {limit : Option Int} {tokens : List Token} {e : Expr}
    (accepted : Expr.ofTokens limit tokens = .ok e) :
    (Expr.preorder e).filterMap Expr.word? = Lexeme.words (tokens.map Token.lexeme) ∧
      ((Expr.preorder e).filterMap Expr.operation?).Perm
        (Lexeme.operations none (tokens.map Token.lexeme)) ∧
      e.size = (tokens.map Token.lexeme).countP Lexeme.makesNode := by
  rw [Yard.Levels.ofTokens_eq_parse] at accepted
  obtain ⟨s, run, finished⟩ := Yard.Levels.parse_ok accepted
  have settled := Yard.Levels.acceptAll_callee limit none {} s tokens (.inl rfl) run
  obtain ⟨kept, grown⟩ := Yard.Levels.finish_conserves settled finished
  have words : Expr.words [e] = Lexeme.words (tokens.map Token.lexeme) :=
    kept.trans (Yard.Levels.words_of_acceptAll (.inl rfl) run)
  have operations := grown.trans (Yard.Levels.operations_of_acceptAll run)
  have alone : Expr.preorderAll [e] = Expr.preorder e := List.append_nil _
  have nodes := Expr.length_words_add_operations [e]
  rw [alone, Expr.length_preorder, words, operations.length_eq] at nodes
  rw [Expr.words, alone] at words
  rw [Expr.operations, alone] at operations
  refine ⟨words, operations, nodes.symm.trans ?_⟩
  exact Lexeme.length_words_add_operations none _

/-- The row `f(x 2 -, -pi)` is accepted though the grammar does not derive it. The minus sign behind the
number is a subtraction and the one behind the comma a negation. -/
theorem ofTokens_conserves_call :
    let row : List Token := [⟨.identifier "f", 0⟩, ⟨.leftParen, 1⟩, ⟨.identifier "x", 2⟩,
      ⟨.number "2", 4⟩, ⟨.operator .sub, 6⟩, ⟨.comma, 7⟩, ⟨.operator .sub, 9⟩,
      ⟨.identifier "pi", 10⟩, ⟨.rightParen, 12⟩]
    let e : Expr := .call "f" [.bin .sub (.var "x") (.const 2.0), .neg (.const 3.141592653589793)]
    Expr.ofTokens none row = .ok e ∧
      (Expr.preorder e).filterMap Expr.word? =
        [.called "f", .named "x", .constant 2.0, .constant 3.141592653589793] ∧
      ((Expr.preorder e).filterMap Expr.operation?).Perm [.binary .sub, .negate] ∧
      e.size = 6 := by
  intro row e
  have accepted : Expr.ofTokens none row = .ok e := rfl
  obtain ⟨words, operations, nodes⟩ := ofTokens_conserves accepted
  exact ⟨accepted, words, operations, nodes⟩

end Formula
