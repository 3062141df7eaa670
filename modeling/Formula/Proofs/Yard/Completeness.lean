import Formula.Proofs.Yard.Groups
import Formula.Proofs.Yard.Limit

/-!
What the grammar derives, the yard accepts. Reading a phrase leaves a row of waiting operators and a
row of parts that the operators fold into the expression of the phrase. The operators bind at least
as tight as the category of the phrase, so the token behind the phrase folds all of them and none
that waited before.
-/

set_option autoImplicit false

namespace Formula

namespace Category

/-- Operators left waiting by a phrase have at least this precedence. An atom leaves none. -/
def tightness : Category → Nat
  | .sum => 2
  | .product => 3
  | .factor | .power => 4
  | .atom => 6

/-- The operators that may wait directly in front of a phrase. -/
def fitsBehind : Category → Operator → Bool
  | .sum, _ => false
  | .product, op => op.precedence < 3
  | .factor, _ | .power, _ | .atom, _ => true

/-- Between phrases of two categories an operator makes a phrase of another: it folds what the left
phrase leaves and nothing in front of it, and the right phrase may stand behind it. -/
structure Joins (c left right : Category) (op : BinaryOp) : Prop where
  folds : ∀ w : Operator, left.tightness ≤ w.precedence → w.precedes (.binary op) = true
  stops : ∀ w : Operator, c.fitsBehind w = true → w.precedes (.binary op) = false
  leads : ∀ w : Operator, c.fitsBehind w = true → left.fitsBehind w = true
  follows : right.fitsBehind (.binary op) = true
  binds : c.tightness ≤ (Operator.binary op).precedence
  tighter : c.tightness ≤ right.tightness

theorem joins_sum {op : BinaryOp} (additive : op = .add ∨ op = .sub) :
    Joins .sum .sum .product op := by
  rcases additive with rfl | rfl
  all_goals
    refine ⟨?_, (by intro _ none; cases none), fun _ fits => fits, rfl, by decide, by decide⟩
    rintro (w | _) tight
    · cases w <;> rfl
    · rfl

theorem joins_product {op : BinaryOp} (factoring : op = .mul ∨ op = .div) :
    Joins .product .product .factor op := by
  rcases factoring with rfl | rfl
  all_goals
    refine ⟨?_, ?_, fun _ fits => fits, rfl, by decide, by decide⟩
    · rintro (w | _) tight
      · cases w <;> revert tight <;> decide
      · rfl
    · rintro (w | _) loose
      · cases w <;> revert loose <;> decide
      · cases loose

theorem joins_power : Joins .power .atom .factor .pow where
  folds w tight := by
    have bounded : w.precedence ≤ 5 := by
      rcases w with w | _
      · cases w <;> decide
      · decide
    simp only [tightness] at tight
    omega
  stops w _ := w.precedes_pow
  leads _ _ := rfl
  follows := rfl
  binds := by decide
  tighter := by decide

end Category

namespace Yard.Levels

open Operator (foldAll)

/-- Reading the tokens of a row, where an operand is expected, puts operators and parts on top of
the innermost level. The parts fold into the expression, and an operator or an end comes next. -/
def Reads (c : Category) (ts : List Lexeme) (e : Expr) : Prop :=
  ∀ (tokens rest : List Token) (previous : Option Lexeme) (s : Levels),
    tokens.map Token.lexeme = ts → Lexeme.expectsOperand previous = true →
    startsOpen rest = false → s.callee = none →
    (∀ w ∈ s.inner.operators.head?, c.fitsBehind w = true) →
    ∃ ops parts last, foldAll ops parts = some [e] ∧
      (∀ w ∈ ops, c.tightness ≤ w.precedence) ∧ Lexeme.expectsOperand (some last) = false ∧
      s.acceptAll none previous (tokens ++ rest) =
        acceptAll none (some last)
          ⟨⟨ops ++ s.inner.operators, parts ++ s.inner.parts⟩, s.outer, none⟩ rest

/-- A phrase of a tighter category is one of a looser category. -/
theorem Reads.loosen {c d : Category} {ts : List Lexeme} {e : Expr} (reads : Reads c ts e)
    (looser : d.tightness ≤ c.tightness)
    (fits : ∀ w : Operator, d.fitsBehind w = true → c.fitsBehind w = true) : Reads d ts e := by
  intro tokens rest previous s written expects closed settled behind
  obtain ⟨ops, parts, last, folded, tight, ends, run⟩ :=
    reads tokens rest previous s written expects closed settled
      (fun w front => fits w (behind w front))
  exact ⟨ops, parts, last, folded, fun w inside => Nat.le_trans looser (tight w inside), ends, run⟩

theorem reads_part {t : Lexeme} {e : Expr} (ends : Lexeme.expectsOperand (some t) = false)
    (puts : ∀ (s : Levels) (previous : Option Lexeme) (position : Nat),
      s.accept none previous false ⟨t, position⟩ = .ok (s.putPart e)) : Reads .atom [t] e := by
  intro tokens rest previous s written expects closed settled behind
  obtain ⟨token, rfl, rfl⟩ := List.map_eq_singleton_iff.1 written
  refine ⟨[], [e], token.lexeme, rfl, (by intro _ none; cases none), ends, ?_⟩
  rw [List.singleton_append]
  have accepted := puts s previous token.position
  rw [← closed] at accepted
  rw [acceptAll_cons accepted]
  simp only [putPart, settled, List.nil_append, List.singleton_append]

theorem reads_negation {ts : List Lexeme} {a : Expr} (operand : Reads .factor ts a) :
    Reads .factor (.operator .sub :: ts) (.neg a) := by
  intro tokens rest previous s written expects closed settled behind
  obtain ⟨sign, tokens, rfl, minus, written⟩ := List.map_eq_cons_iff.1 written
  obtain ⟨⟨waiting, below⟩, outer, callee⟩ := s
  cases settled
  have negates : Lexeme.operatorAfter previous .sub = .negate := by
    simp only [Lexeme.operatorAfter, expects, Bool.and_true, decide_true, ↓reduceIte]
  have put : accept none previous (startsOpen (tokens ++ rest)) ⟨⟨waiting, below⟩, outer, none⟩
      sign = .ok ⟨⟨.negate :: waiting, below⟩, outer, none⟩ := by
    have waits : Operator.negate.foldPreceding waiting below = some (waiting, below) :=
      @Operator.foldPreceding_of_foldAll .negate [] waiting below below
        (by intro _ none; cases none) (fun w _ => w.precedes_negate) rfl
    simp only [accept, minus, negates, putOperator, waits]
  obtain ⟨ops, parts, last, folded, tight, ends, run⟩ :=
    operand tokens rest (some (.operator .sub)) ⟨⟨.negate :: waiting, below⟩, outer, none⟩
      written rfl closed rfl (fun _ _ => rfl)
  refine ⟨ops ++ [.negate], parts, last, ?_, ?_, ends, ?_⟩
  · rw [Operator.foldAll_append, folded]
    rfl
  · intro w inside
    rcases List.mem_append.1 inside with inside | inside
    · exact tight w inside
    · cases List.mem_singleton.1 inside
      decide
  · rw [List.cons_append, acceptAll_cons put, minus, run]
    simp only [List.append_assoc, List.singleton_append]

theorem reads_binary {c left right : Category} {op : BinaryOp} {ts us : List Lexeme}
    {a b : Expr} (joins : Category.Joins c left right op) (first : Reads left ts a)
    (second : Reads right us b) :
    Reads c (ts ++ .operator op :: us) (.bin op a b) := by
  intro tokens rest previous s written expects closed settled behind
  obtain ⟨before, signed, rfl, writtenFirst, written⟩ := List.map_eq_append_iff.1 written
  obtain ⟨sign, after, rfl, isSign, writtenSecond⟩ := List.map_eq_cons_iff.1 written
  obtain ⟨⟨waiting, below⟩, outer, callee⟩ := s
  cases settled
  have unopened : startsOpen (sign :: after ++ rest) = false := by
    simp only [List.cons_append, startsOpen, isSign]
    rfl
  obtain ⟨ops, parts, last, folded, tight, ends, run⟩ :=
    first before (sign :: after ++ rest) previous ⟨⟨waiting, below⟩, outer, none⟩ writtenFirst
      expects unopened rfl (fun w front => joins.leads w (behind w front))
  have binary : Lexeme.operatorAfter (some last) op = .binary op := by
    simp only [Lexeme.operatorAfter, ends, Bool.and_false, Bool.false_eq_true, ↓reduceIte]
  -- The sign folds what the first phrase left, and nothing that waited in front of it.
  have put : accept none (some last) (startsOpen (after ++ rest))
      ⟨⟨ops ++ waiting, parts ++ below⟩, outer, none⟩ sign =
        .ok ⟨⟨.binary op :: waiting, a :: below⟩, outer, none⟩ := by
    have folds : (Operator.binary op).foldPreceding (ops ++ waiting) (parts ++ below) =
        some (waiting, a :: below) :=
      Operator.foldPreceding_of_foldAll (fun w inside => joins.folds w (tight w inside))
        (fun w front => joins.stops w (behind w front))
        (Operator.foldAll_append_parts below folded)
    simp only [accept, isSign, binary, putOperator, folds]
  obtain ⟨ops', parts', last', folded', tight', ends', run'⟩ :=
    second after rest (some (.operator op)) ⟨⟨.binary op :: waiting, a :: below⟩, outer, none⟩
      writtenSecond rfl closed rfl (fun w front => by cases front; exact joins.follows)
  refine ⟨ops' ++ [.binary op], parts' ++ [a], last', ?_, ?_, ends', ?_⟩
  · rw [Operator.foldAll_append, Operator.foldAll_append_parts [a] folded']
    rfl
  · intro w inside
    rcases List.mem_append.1 inside with inside | inside
    · exact Nat.le_trans joins.tighter (tight' w inside)
    · cases List.mem_singleton.1 inside
      exact joins.binds
  · rw [List.append_assoc, run, List.cons_append, acceptAll_cons put, isSign, run']
    simp only [List.append_assoc, List.singleton_append]

theorem Reads.fills {ts : List Lexeme} {e : Expr} (reads : Reads .sum ts e) : Fills ts e := by
  intro tokens rest previous s written expects closed settled fresh
  obtain ⟨ops, parts, last, folded, -, -, run⟩ :=
    reads tokens rest previous s written expects closed settled
      (by rw [fresh]; intro _ none; cases none)
  refine ⟨ops, parts, some last, folded, ?_⟩
  rw [run, fresh, List.append_nil]

theorem reads_group {ts : List Lexeme} {e : Expr} (body : Reads .sum ts e) :
    Reads .atom (.leftParen :: ts ++ [.rightParen]) e := by
  intro tokens rest previous s written expects closed settled behind
  refine ⟨[], [e], .rightParen, rfl, (by intro _ none; cases none), rfl, ?_⟩
  rw [acceptAll_group body.fills s previous tokens rest written settled]
  simp only [putPart, settled, List.nil_append, List.singleton_append]

theorem reads_call (name : String) (arguments : List (List Lexeme × Expr))
    (reads : ∀ a ∈ arguments, Reads .sum a.1 a.2) :
    Reads .atom (.identifier name :: .leftParen ::
        [Lexeme.comma].intercalate (arguments.map Prod.fst) ++ [.rightParen])
      (.call name (arguments.map Prod.snd)) := by
  intro tokens rest previous s written expects closed settled behind
  refine ⟨[], [.call name (arguments.map Prod.snd)], .rightParen, rfl,
    (by intro _ none; cases none), rfl, ?_⟩
  rw [acceptAll_call name arguments (fun a inside => (reads a inside).fills) s previous tokens
    rest written settled]
  simp only [putPart, settled, List.nil_append, List.singleton_append]

/-- Every phrase is read into its expression, by induction on the derivation. -/
theorem reads_of_phrase {c : Category} {ts : List Lexeme} {e : Expr} (phrase : Phrase c ts e) :
    Reads c ts e := by
  induction phrase with
  | sumOfProduct _ ih => exact ih.loosen (by decide) (by intro _ none; cases none)
  | sum additive _ _ first second => exact reads_binary (Category.joins_sum additive) first second
  | productOfFactor _ ih => exact ih.loosen (by decide) (fun _ _ => rfl)
  | product factoring _ _ first second =>
      exact reads_binary (Category.joins_product factoring) first second
  | factorOfPower _ ih => exact ih.loosen (by decide) (fun _ _ => rfl)
  | negation _ ih => exact reads_negation ih
  | powerOfAtom _ ih => exact ih.loosen (by decide) (fun _ _ => rfl)
  | power _ _ first second => exact reads_binary Category.joins_power first second
  | number text => exact reads_part rfl (fun _ _ _ => rfl)
  | identifier name => exact reads_part rfl (fun _ _ _ => rfl)
  | group _ ih => exact reads_group ih
  | call name arguments _ ih => exact reads_call name arguments ih

theorem parse_of_phrase (tokens : List Token) (e : Expr)
    (derived : Phrase .sum (tokens.map Token.lexeme) e) : parse none tokens = .ok e := by
  obtain ⟨ops, parts, last, folded, -, -, run⟩ :=
    reads_of_phrase derived tokens [] none {} rfl rfl rfl rfl (by intro _ none; cases none)
  simp only [List.append_nil] at run
  simp only [parse, run, acceptAll, Except.bind, finish, folded]

end Yard.Levels

/-- A row of tokens that the grammar derives is accepted under every limit that its nesting keeps
within, and the tree is that of the derivation. -/
theorem ofTokens_of_phrase (tokens : List Token) (e : Expr) (limit : Int)
    (derived : Phrase .sum (tokens.map Token.lexeme) e)
    (within : (Lexeme.nesting (tokens.map Token.lexeme) : Int) ≤ limit) :
    Expr.ofTokens (some limit) tokens = .ok e := by
  rw [Yard.Levels.ofTokens_eq_parse, Yard.Levels.parse_of_nesting_le limit tokens within]
  exact Yard.Levels.parse_of_phrase tokens e derived

/-- `-x ^ 2 * f(y - pi, z)` under the limit of one open parenthesis. -/
theorem ofTokens_of_phrase_negated_power :
    Phrase .sum [.operator .sub, .identifier "x", .operator .pow, .number "2", .operator .mul,
        .identifier "f", .leftParen, .identifier "y", .operator .sub, .identifier "pi", .comma,
        .identifier "z", .rightParen]
      (.bin .mul (.neg (.bin .pow (.var "x") (.const 2.0)))
        (.call "f" [.bin .sub (.var "y") (.const 3.141592653589793), .var "z"])) ∧
    Expr.ofTokens (some 1)
      [⟨.operator .sub, 0⟩, ⟨.identifier "x", 1⟩, ⟨.operator .pow, 3⟩, ⟨.number "2", 5⟩,
        ⟨.operator .mul, 7⟩, ⟨.identifier "f", 9⟩, ⟨.leftParen, 10⟩, ⟨.identifier "y", 11⟩,
        ⟨.operator .sub, 13⟩, ⟨.identifier "pi", 15⟩, ⟨.comma, 17⟩, ⟨.identifier "z", 19⟩,
        ⟨.rightParen, 20⟩] =
      .ok (.bin .mul (.neg (.bin .pow (.var "x") (.const 2.0)))
        (.call "f" [.bin .sub (.var "y") (.const 3.141592653589793), .var "z"])) := by
  have operand {name : String} : Phrase .factor [.identifier name] (.ofIdentifier name) :=
    .factorOfPower (.powerOfAtom (.identifier name))
  have square : Phrase .factor [.operator .sub, .identifier "x", .operator .pow, .number "2"]
      (.neg (.bin .pow (.var "x") (.const 2.0))) :=
    .negation (.factorOfPower (.power (.identifier "x")
      (.factorOfPower (.powerOfAtom (.number "2")))))
  have difference : Phrase .sum [.identifier "y", .operator .sub, .identifier "pi"]
      (.bin .sub (.var "y") (.const 3.141592653589793)) :=
    .sum (.inr rfl) (.sumOfProduct (.productOfFactor operand)) (.productOfFactor operand)
  have call : Phrase .factor
      [.identifier "f", .leftParen, .identifier "y", .operator .sub, .identifier "pi", .comma,
        .identifier "z", .rightParen]
      (.call "f" [.bin .sub (.var "y") (.const 3.141592653589793), .var "z"]) := by
    refine .factorOfPower (.powerOfAtom (.call "f"
      [([.identifier "y", .operator .sub, .identifier "pi"], _),
        ([.identifier "z"], .var "z")] ?_))
    intro a inside
    rcases List.mem_cons.1 inside with rfl | inside
    · exact difference
    · cases List.mem_singleton.1 inside
      exact .sumOfProduct (.productOfFactor operand)
  have derived := Phrase.sumOfProduct (.product (.inl rfl) (.productOfFactor square) call)
  exact ⟨derived, ofTokens_of_phrase _ _ 1 derived (by decide)⟩

end Formula
