import Formula.Proofs.Placement
import Formula.Proofs.Yard.Completeness
import Formula.Proofs.Yard.Rejection
import Formula.Token.Scan

/-!
What the yard accepts. The yard only counts: an operator takes parts that are there, and a level
ends with as many parts as it may hold. Where no operand stands directly behind another one this is
enough. Every level then has exactly the parts that its lexemes call for, or it owes some; a binary
operator without a left operand adds a debt, nothing ever pays one, and a level in debt cannot end.
-/

set_option autoImplicit false

namespace Formula

namespace Yard.Levels

open Lexeme (expectsOperand juxtaposed Fits stackAfter Placed Unjuxtaposed)
open Operator (binaries foldAll)

def commasOf : List (Opening × Level) → Nat
  | [] => 0
  | (o, _) :: _ => o.commas

/-- Whether the open parentheses belong to calls. -/
def callsOf (outer : List (Opening × Level)) : List Bool := outer.map fun level => level.1.isCall

/-- The level has fewer parts than its operators and the finished arguments call for, by so many.
Behind an operand it has one more. -/
def Level.Owes (level : Level) (commas slack owed : Nat) : Prop :=
  level.parts.length + owed = binaries level.operators + commas + slack

/-- The levels around the innermost one owe so many parts together. All of them expect an operand:
the parenthesis that they wait for. -/
inductive OuterOwes : List (Opening × Level) → Nat → Prop
  | nil : OuterOwes [] 0
  | cons {o : Opening} {level : Level} {rest : List (Opening × Level)} {owed more : Nat} :
      Level.Owes level (commasOf rest) 0 owed → OuterOwes rest more →
      OuterOwes ((o, level) :: rest) (owed + more)

/-- The part that stands in front of the next lexeme, if it ends an operand. -/
def slack (previous : Option Lexeme) (callee : Option (String × Nat)) : Nat :=
  if expectsOperand previous || callee.isSome then 0 else 1

/-- All levels owe so many parts together. -/
def Owes (previous : Option Lexeme) (s : Levels) (owed : Nat) : Prop :=
  ∃ inner outer, Level.Owes s.inner (commasOf s.outer) (slack previous s.callee) inner ∧
    OuterOwes s.outer outer ∧ owed = inner + outer

/-- What holds of levels between two tokens: a call waits for its parenthesis behind its name, and a
level is empty only behind the parenthesis that opened it. -/
structure Follows (previous : Option Lexeme) (s : Levels) (tokens : List Token) : Prop where
  named : s.callee.isSome = (previous.any Lexeme.isIdentifier && startsOpen tokens)
  filled : s.inner = {} → s.callee = none → s.outer = [] ∨ previous = some .leftParen

variable {limit : Option Int} {previous : Option Lexeme} {s s' : Levels} {t : Token}
  {rest : List Token}

theorem Step.follows (step : Step limit previous (startsOpen rest) s t s')
    (follows : Follows previous s (t :: rest)) : Follows (some t.lexeme) s' rest := by
  cases step with
  | number _ text position =>
      constructor
      · rw [putPart, follows.named]
        simp only [startsOpen, Option.any_some, Lexeme.isIdentifier, Bool.false_and]
        exact Bool.and_false _
      · intro empty
        cases congrArg Level.parts empty
  | uncalled _ name position stands =>
      constructor
      · rw [putPart, follows.named, stands, Bool.and_false]
        exact Bool.and_false _
      · intro empty
        cases congrArg Level.parts empty
  | called _ name position opens =>
      constructor
      · rw [opens]
        rfl
      · intro _ settled
        cases settled
  | operator _ op position folded =>
      constructor
      · rw [follows.named]
        exact Bool.and_false _
      · intro empty
        cases congrArg Level.operators empty
  | opening _ position room => exact ⟨rfl, fun _ _ => .inr rfl⟩
  | comma inner level rest callee name place opened commas position folded filled =>
      refine ⟨rfl, ?_⟩
      intro empty
      cases congrArg Level.parts empty
      cases filled
  | closeGroup inner level rest callee opened position folded =>
      refine ⟨rfl, ?_⟩
      intro empty
      cases congrArg Level.parts empty
  | closeCall inner level rest callee name place opened commas position folded filled =>
      refine ⟨rfl, ?_⟩
      intro empty
      cases congrArg Level.parts empty

/-- An operand that does not stand behind another one stands where one is expected. -/
theorem expects_of_apart {t : Lexeme} (apart : ∀ u ∈ previous, juxtaposed u t = false)
    (starts : t.startsOperand = true) (unopened : t ≠ .leftParen) :
    expectsOperand previous = true := by
  cases previous with
  | none => rfl
  | some u =>
      have := apart u rfl
      simpa [juxtaposed, starts, unopened, Lexeme.endsOperand_eq] using this

/-- A parenthesis that does not stand behind an operand stands behind the name of a call or where an
operand is expected. -/
theorem named_of_apart (apart : ∀ u ∈ previous, juxtaposed u .leftParen = false) :
    previous.any Lexeme.isIdentifier = !expectsOperand previous := by
  cases previous with
  | none => rfl
  | some u =>
      have := apart u rfl
      cases u with
      | identifier name => rfl
      | number text => cases this
      | operator op => rfl
      | leftParen => rfl
      | rightParen => cases this
      | comma => rfl

theorem Step.calls (step : Step limit previous (startsOpen rest) s t s')
    (follows : Follows previous s (t :: rest))
    (apart : ∀ u ∈ previous, juxtaposed u t.lexeme = false) :
    callsOf s'.outer = stackAfter (callsOf s.outer) previous t.lexeme := by
  cases step with
  | number => rfl
  | uncalled => rfl
  | called => rfl
  | operator => rfl
  | opening _ position room =>
      have isCall : (Opening.behind position s.callee).isCall = s.callee.isSome := by
        cases s.callee <;> rfl
      have behind := follows.named
      rw [startsOpen, beq_self_eq_true, Bool.and_true, named_of_apart apart] at behind
      rw [callsOf, List.map_cons, isCall, behind]
      rfl
  | comma => rfl
  | closeGroup => rfl
  | closeCall => rfl

theorem slack_le (previous : Option Lexeme) (callee : Option (String × Nat)) :
    slack previous callee ≤ 1 := by
  rw [slack]
  split <;> omega

theorem slack_of_expects (expects : expectsOperand previous = true)
    (callee : Option (String × Nat)) : slack previous callee = 0 := by
  rw [slack, expects]
  rfl

theorem ended_of_slack (positive : slack previous none = 1) : expectsOperand previous = false := by
  cases expects : expectsOperand previous with
  | false => rfl
  | true =>
      rw [slack_of_expects expects] at positive
      cases positive

theorem Follows.settled (follows : Follows previous s (t :: rest))
    (unopened : t.lexeme ≠ .leftParen) : s.callee = none := by
  have named := follows.named
  rw [startsOpen, beq_false_of_ne unopened, Bool.and_false] at named
  exact Option.not_isSome_iff_eq_none.1 (by rw [named]; exact Bool.false_ne_true)

/-- A level that gets an operand where it expects one owes as much as before. -/
theorem Level.Owes.operand {level : Level} {commas owed : Nat} (e : Expr)
    (owes : Level.Owes level commas 0 owed) :
    Level.Owes { level with parts := e :: level.parts } commas 1 owed := by
  simp only [Level.Owes, List.length_cons] at owes ⊢
  omega

/-- An operand that is put where one is expected leaves the debt as it was. -/
theorem owes_putPart {u : Lexeme} {owed : Nat} (owes : Owes previous s owed)
    (expects : expectsOperand previous = true) (settled : s.callee = none)
    (ends : slack (some u) none = 1) (e : Expr) : Owes (some u) (s.putPart e) owed := by
  obtain ⟨inner, outer, short, around, rfl⟩ := owes
  rw [slack_of_expects expects] at short
  refine ⟨inner, outer, ?_, around, rfl⟩
  rw [putPart, settled, ends]
  exact short.operand e

theorem owes_closed {o : Opening} {level : Level} {rest : List (Opening × Level)} {owed : Nat}
    (e : Expr) (around : OuterOwes ((o, level) :: rest) owed) :
    Owes (some .rightParen) ⟨{ level with parts := e :: level.parts }, rest, none⟩ owed := by
  cases around with
  | cons first more => exact ⟨_, _, first.operand e, more, rfl⟩

/-- A level that ends with as many parts as it may hold has no debt, and ends behind an operand. -/
theorem Level.Owes.ends {level : Level} {commas owed : Nat} {parts : List Expr}
    (owes : Level.Owes level commas (slack previous none) owed)
    (folded : foldAll level.operators level.parts = some parts)
    (filled : parts.length = commas + 1) : owed = 0 ∧ expectsOperand previous = false := by
  have length := Operator.length_foldAll folded
  have bound := slack_le previous none
  rw [Level.Owes] at owes
  exact ⟨by omega, ended_of_slack (by omega)⟩

/-- An operator is placed or takes a part that is not there. -/
theorem owes_operator {level : Level} {op : BinaryOp} {ops : List Operator} {parts : List Expr}
    {commas owed : Nat} (owes : Level.Owes level commas (slack previous none) owed)
    (folded : (Lexeme.operatorAfter previous op).foldPreceding level.operators level.parts =
      some (ops, parts)) :
    Level.Owes ⟨Lexeme.operatorAfter previous op :: ops, parts⟩ commas 0 (owed + 1) ∨
      (expectsOperand previous = true → op = .sub) ∧
        Level.Owes ⟨Lexeme.operatorAfter previous op :: ops, parts⟩ commas 0 owed := by
  have length := Operator.length_foldPreceding folded
  have counted := Operator.binaries_cons (Lexeme.operatorAfter previous op) ops
  simp only [Level.Owes] at owes ⊢
  cases expects : expectsOperand previous with
  | false =>
      have signed : Lexeme.operatorAfter previous op = .binary op := by
        rw [Lexeme.operatorAfter, expects, Bool.and_false]
        rfl
      have ends : slack previous none = 1 := by
        rw [slack, expects]
        rfl
      rw [signed] at counted ⊢
      rw [counted, show binaries [.binary op] = 1 from rfl]
      exact .inr ⟨(by intro none; cases none), by omega⟩
  | true =>
      rw [slack_of_expects expects] at owes
      by_cases minus : op = .sub
      · have signed : Lexeme.operatorAfter previous op = .negate := by
          rw [Lexeme.operatorAfter, expects, minus]
          rfl
        rw [signed] at counted ⊢
        rw [counted, show binaries [.negate] = 0 from rfl]
        exact .inr ⟨fun _ => minus, by omega⟩
      · have signed : Lexeme.operatorAfter previous op = .binary op := by
          rw [Lexeme.operatorAfter, decide_eq_false minus]
          rfl
        rw [signed] at counted ⊢
        rw [counted, show binaries [.binary op] = 1 from rfl]
        exact .inl (by omega)

/-- A level inside parentheses that comes to nothing is empty, and stands behind the parenthesis that
opened it. -/
theorem Follows.unfilled {tokens : List Token} (follows : Follows previous s tokens)
    (settled : s.callee = none) (inside : s.outer ≠ [])
    (folded : foldAll s.inner.operators s.inner.parts = some []) :
    s.inner = {} ∧ previous = some .leftParen := by
  obtain ⟨⟨ops, parts⟩, outer, callee⟩ := s
  obtain ⟨unused, bare⟩ := Operator.foldAll_eq_nil folded
  cases unused
  cases bare
  exact ⟨rfl, (follows.filled rfl settled).resolve_left inside⟩

/-- One token: it stands where it may, or one part more is owed. -/
theorem Step.owes {owed : Nat} (step : Step limit previous (startsOpen rest) s t s')
    (owes : Owes previous s owed) (follows : Follows previous s (t :: rest))
    (apart : ∀ u ∈ previous, juxtaposed u t.lexeme = false) :
    Owes (some t.lexeme) s' (owed + 1) ∨
      Fits (callsOf s.outer) previous t.lexeme ∧ Owes (some t.lexeme) s' owed := by
  have whole := owes
  obtain ⟨inner, outer, short, around, rfl⟩ := owes
  cases step with
  | number _ text position =>
      have expects := expects_of_apart apart rfl (by simp)
      exact .inr ⟨expects, owes_putPart whole expects (follows.settled (by simp)) rfl _⟩
  | uncalled _ name position stands =>
      have expects := expects_of_apart apart rfl (by simp)
      exact .inr ⟨expects, owes_putPart whole expects (follows.settled (by simp)) rfl _⟩
  | called _ name position opens =>
      have expects := expects_of_apart apart rfl (by simp)
      rw [slack_of_expects expects] at short
      exact .inr ⟨expects, inner, outer, short, around, rfl⟩
  | operator _ op position folded =>
      rw [follows.settled (by simp)] at short
      rcases owes_operator short folded with more | ⟨fits, same⟩
      · exact .inl ⟨inner + 1, outer, more, around, by omega⟩
      · exact .inr ⟨fits, inner, outer, same, around, rfl⟩
  | opening _ position room =>
      have named := follows.named
      rw [startsOpen, beq_self_eq_true, Bool.and_true] at named
      have waits : slack previous s.callee = 0 := by
        rw [slack, named, named_of_apart apart, Bool.or_not_self]
        rfl
      have fits : Fits (callsOf s.outer) previous .leftParen := by
        rw [Fits, named_of_apart apart]
        cases expectsOperand previous with
        | true => exact .inl rfl
        | false => exact .inr rfl
      rw [waits] at short
      refine .inr ⟨fits, 0, inner + outer, ?_, .cons short around, by omega⟩
      have fresh : (Opening.behind position s.callee).commas = 0 := by
        cases s.callee <;> rfl
      simp only [commasOf, fresh]
      rfl
  | comma level above rest callee name place opened commas position folded filled =>
      cases follows.settled (by simp)
      obtain ⟨rfl, ended⟩ := short.ends folded filled
      cases around with
      | cons first more =>
          refine .inr ⟨⟨ended, rfl⟩, 0, _, ?_, .cons first more, rfl⟩
          simp only [Level.Owes, commasOf, Opening.commas, filled]
          rw [slack_of_expects rfl]
          exact (Nat.zero_add _).symm
  | closeGroup level above rest callee opened position folded =>
      cases follows.settled (by simp)
      obtain ⟨rfl, ended⟩ := short.ends folded rfl
      rw [Nat.zero_add]
      exact .inr ⟨.inl ⟨ended, List.cons_ne_nil _ _⟩, owes_closed _ around⟩
  | closeCall level above rest callee name place opened commas position folded filled =>
      cases follows.settled (by simp)
      rcases filled with filled | ⟨rfl, rfl⟩
      · obtain ⟨rfl, ended⟩ := short.ends folded filled
        rw [Nat.zero_add]
        exact .inr ⟨.inl ⟨ended, List.cons_ne_nil _ _⟩, owes_closed _ around⟩
      · obtain ⟨empty, opened⟩ := follows.unfilled rfl (List.cons_ne_nil _ _) folded
        cases empty
        have expects : expectsOperand previous = true := by
          rw [opened]
          rfl
        rw [slack_of_expects expects] at short
        have paid : inner = 0 := by
          simpa [Level.Owes, commasOf, Opening.commas, binaries] using short
        rw [paid, Nat.zero_add]
        exact .inr ⟨.inr ⟨opened, rfl⟩, owes_closed _ around⟩

/-- A level that has finished the whole text has no debt. -/
theorem finish_owes {position owed : Nat} {e : Expr} (finished : s.finish position = .ok e)
    (owes : Owes previous s owed) (settled : s.callee = none) :
    owed = 0 ∧ expectsOperand previous = false ∧ s.outer = [] := by
  obtain ⟨folded, whole⟩ := finish_ok finished
  obtain ⟨inner, more, short, around, rfl⟩ := owes
  rw [settled, whole] at short
  rw [whole] at around
  cases around
  obtain ⟨rfl, ended⟩ := short.ends folded rfl
  exact ⟨rfl, ended, whole⟩

theorem apart_of_unjuxtaposed {ts : List Lexeme} {u : Lexeme}
    (unjuxtaposed : Unjuxtaposed (previous.toList ++ u :: ts)) :
    (∀ t ∈ previous, juxtaposed t u = false) ∧ Unjuxtaposed (u :: ts) := by
  cases previous with
  | none => exact ⟨(by intro _ none; cases none), unjuxtaposed⟩
  | some t =>
      obtain ⟨apart, rest⟩ := List.isChain_cons_cons.1 unjuxtaposed
      exact ⟨fun _ same => by cases same; exact apart, rest⟩

/-- A run that succeeds owes nothing at its start, and places every token. The debts go from the end
of the run to its start. -/
theorem placed_of_run {s' : Levels} {tokens : List Token} {e : Expr} {position owed : Nat}
    (accepted : s.acceptAll limit previous tokens = .ok s') (finished : s'.finish position = .ok e)
    (owes : Owes previous s owed) (follows : Follows previous s tokens)
    (unjuxtaposed : Unjuxtaposed (previous.toList ++ tokens.map Token.lexeme)) :
    owed = 0 ∧ Placed (callsOf s.outer) previous (tokens.map Token.lexeme) := by
  induction tokens generalizing previous s owed with
  | nil =>
      cases accepted
      have settled : s'.callee = none := by
        have named := follows.named
        rw [startsOpen, Bool.and_false] at named
        exact Option.not_isSome_iff_eq_none.1 (by rw [named]; exact Bool.false_ne_true)
      obtain ⟨paid, ended, whole⟩ := finish_owes finished owes settled
      rw [whole]
      exact ⟨paid, rfl, ended⟩
  | cons t rest ih =>
      obtain ⟨next, step, accepted⟩ := acceptAll_cons_ok accepted
      obtain ⟨apart, unjuxtaposed⟩ := apart_of_unjuxtaposed unjuxtaposed
      rcases step.owes owes follows apart with more | ⟨fits, same⟩
      · obtain ⟨none, -⟩ := ih accepted more (step.follows follows) unjuxtaposed
        cases none
      · obtain ⟨paid, placed⟩ := ih accepted same (step.follows follows) unjuxtaposed
        rw [step.calls follows apart] at placed
        exact ⟨paid, fits, placed⟩

theorem derivable_of_parse {tokens : List Token} {e : Expr} (parsed : parse limit tokens = .ok e)
    (unjuxtaposed : Unjuxtaposed (tokens.map Token.lexeme)) :
    Derivable .sum (tokens.map Token.lexeme) := by
  obtain ⟨s, accepted, finished⟩ := parse_ok parsed
  have start : Owes none {} 0 := ⟨0, 0, rfl, .nil, rfl⟩
  have follows : Follows none {} tokens := ⟨rfl, fun _ _ => .inl rfl⟩
  exact Lexeme.derivable_of_placed (placed_of_run accepted finished start follows unjuxtaposed).2

end Yard.Levels

/-- A row of tokens that is accepted is derivable exactly when no operand stands directly behind
another one, and then the tree is that of every derivation. A row that is not accepted fails for a
cause in the text. -/
theorem ofTokens_derivable_iff (limit : Option Int) (tokens : List Token) :
    match Expr.ofTokens limit tokens with
    | .ok e =>
      (Derivable .sum (tokens.map Token.lexeme) ↔
          Lexeme.Unjuxtaposed (tokens.map Token.lexeme)) ∧
        ∀ e', Phrase .sum (tokens.map Token.lexeme) e' → e' = e
    | .error failure => ∃ cause, failure = .malformed cause := by
  rw [Yard.Levels.ofTokens_eq_parse]
  cases parsed : Yard.Levels.parse limit tokens with
  | error failure => exact Yard.Levels.onlyRejects_parse limit tokens failure parsed
  | ok e =>
      refine ⟨⟨?_, Yard.Levels.derivable_of_parse parsed⟩, ?_⟩
      · rintro ⟨e', phrase⟩
        exact phrase.unjuxtaposed
      · intro e' phrase
        have tree := Yard.Levels.parse_of_phrase tokens e' phrase
        rw [Yard.Levels.parse_unlimited limit tokens e parsed] at tree
        exact (Except.ok.inj tree).symm

/-- The text `2 3 +` is cut into tokens that are accepted as `2 + 3`, and the grammar does not derive
them. -/
theorem postfix_sum_accepted :
    Token.scan "2 3 +" =
        .ok [⟨.number "2", 0⟩, ⟨.number "3", 2⟩, ⟨.operator .add, 4⟩] ∧
      Expr.ofTokens (some 100) [⟨.number "2", 0⟩, ⟨.number "3", 2⟩, ⟨.operator .add, 4⟩] =
        .ok (.bin .add (.const 2.0) (.const 3.0)) ∧
      ¬ Derivable .sum [.number "2", .number "3", .operator .add] := by
  refine ⟨by decide +kernel, rfl, ?_⟩
  rintro ⟨e, phrase⟩
  exact absurd phrase.unjuxtaposed (by decide)

end Formula
