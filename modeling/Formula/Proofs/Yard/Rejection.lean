import Formula.Proofs.Yard.Levels

/-!
How a parse fails. Levels always fit each other, so the only failures are causes in the text, and a
called name is never found without its parenthesis.
-/

set_option autoImplicit false

namespace Formula

/-- The name of a call waits and no parenthesis was opened behind it. -/
def Malformation.isUnopenedCall : Malformation → Bool
  | .danglingCall .. | .unclosedCall .. => true
  | _ => false

namespace Yard.Levels

/-- The only failures are causes in the text. -/
def OnlyRejects {α : Type} (x : Fallible α) : Prop :=
  ∀ failure, x = .error failure → ∃ cause, failure = .malformed cause

/-- The only failures are causes in the text that levels can have. -/
def Rejects {α : Type} (x : Fallible α) : Prop :=
  ∀ failure, x = .error failure → ∃ cause, failure = .malformed cause ∧ cause.isUnopenedCall = false

theorem rejects_reject {α : Type} {cause : Malformation} (opened : cause.isUnopenedCall = false) :
    Rejects (reject cause : Fallible α) := by
  intro failure failed
  cases failed
  exact ⟨cause, rfl, opened⟩

theorem rejects_ok {α : Type} (a : α) : Rejects (.ok a : Fallible α) := by
  intro failure failed
  cases failed

theorem Rejects.bind {α β : Type} {x : Fallible α} {f : α → Fallible β}
    (first : Rejects x) (more : ∀ a, Rejects (f a)) : Rejects (x.bind f) := by
  intro failure failed
  cases x with
  | error cause =>
      cases failed
      exact first failure rfl
  | ok a => exact more a failure failed

theorem rejects_close (o : Opening) (level : Level) (parts : List Expr) (position : Nat) :
    Rejects (close o level parts position) := by
  cases o with
  | group opened =>
      rw [close]
      split
      · exact rejects_reject rfl
      · split
        · exact rejects_reject rfl
        · exact rejects_ok _
  | call name place opened commas =>
      simp only [close]
      generalize (if commas = 0 ∧ parts.length = 0 then 0 else commas + 1) = expected
      split
      · exact rejects_reject rfl
      · split
        · exact rejects_reject rfl
        · exact rejects_ok _

theorem rejects_endArgument (s : Levels) (position : Nat) :
    Rejects (s.endArgument position) := by
  rw [endArgument]
  split
  · exact rejects_reject rfl
  · split
    · exact rejects_reject rfl
    · exact rejects_reject rfl
    · split
      · exact rejects_reject rfl
      · split
        · exact rejects_reject rfl
        · exact rejects_ok _

theorem rejects_closeParen (s : Levels) (position : Nat) :
    Rejects (s.closeParen position) := by
  rw [closeParen]
  split
  · exact rejects_reject rfl
  · next parts folded =>
      split
      · exact rejects_reject rfl
      · next o level rest around =>
          intro failure failed
          apply rejects_close o level parts position failure
          cases closed : close o level parts position with
          | error cause =>
              rw [closed] at failed
              cases failed
              rfl
          | ok level =>
              rw [closed] at failed
              cases failed

theorem rejects_accept (limit : Option Int) (previous : Option Lexeme) (opensNext : Bool)
    (s : Levels) (t : Token) : Rejects (s.accept limit previous opensNext t) := by
  obtain ⟨lexeme, position⟩ := t
  cases lexeme with
  | number text => exact rejects_ok _
  | identifier name => exact rejects_ok _
  | operator op =>
      simp only [accept, putOperator]
      split
      · exact rejects_ok _
      · exact rejects_reject rfl
  | leftParen =>
      simp only [accept, openParen]
      split
      · exact rejects_reject rfl
      · exact rejects_ok _
  | comma => exact rejects_endArgument s position
  | rightParen => exact rejects_closeParen s position

theorem rejects_acceptAll (limit : Option Int) (previous : Option Lexeme) (s : Levels)
    (tokens : List Token) : Rejects (s.acceptAll limit previous tokens) := by
  induction tokens generalizing previous s with
  | nil => exact rejects_ok s
  | cons t rest ih => exact (rejects_accept limit previous _ s t).bind fun next => ih _ next

theorem rejects_finish (s : Levels) (position : Nat) : Rejects (s.finish position) := by
  rw [finish]
  split
  · exact rejects_reject rfl
  · split
    · exact rejects_reject rfl
    · exact rejects_reject rfl
    · exact rejects_ok _
    · exact rejects_reject rfl

theorem rejects_parse (limit : Option Int) (tokens : List Token) :
    Rejects (parse limit tokens) :=
  (rejects_acceptAll limit none {} tokens).bind fun s => rejects_finish s _

theorem onlyRejects_parse (limit : Option Int) (tokens : List Token) :
    OnlyRejects (parse limit tokens) := by
  intro failure failed
  obtain ⟨cause, rejected, -⟩ := rejects_parse limit tokens failure failed
  exact ⟨cause, rejected⟩

end Yard.Levels

end Formula
