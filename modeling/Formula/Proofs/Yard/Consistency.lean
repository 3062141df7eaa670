import Formula.Proofs.Yard.Limit
import Formula.Proofs.Yard.Rejection

/-!
The three stacks fit each other. For every open parenthesis that waits there is a frame, and it is the
frame of a call exactly if the name of the call waits directly below the parenthesis. This holds of
every yard that comes up, as all of them are the stacks of some levels. So nothing is ever taken from
an empty stack, no name is ever found without its parenthesis, and a row is only accepted if its
parentheses balance.
-/

set_option autoImplicit false

namespace Formula

namespace Yard

/-! ### Yards that come up -/

/-- Taking in tokens from the start comes to a yard, with a lexeme in front and tokens still to come. -/
inductive Reached (limit : Option Int) (tokens : List Token) :
    Option Lexeme → Yard → List Token → Prop
  | start : Reached limit tokens none {} tokens
  | step {previous : Option Lexeme} {y y' : Yard} {t : Token} {rest : List Token}
      (before : Reached limit tokens previous y (t :: rest))
      (accepted : y.accept limit previous (startsOpen rest) t = .ok y') :
      Reached limit tokens (some t.lexeme) y' rest

/-- The open parentheses that wait, the innermost first: whether a name waits directly below. -/
def waitingCalls : List Waiting → List Bool
  | [] => []
  | .openParen _ :: waiting => opensCall waiting :: waitingCalls waiting
  | .operator _ :: waiting | .call _ _ :: waiting => waitingCalls waiting

/-- The stacks fit each other. -/
structure Consistent (y : Yard) : Prop where
  /-- The frames are those of the open parentheses that wait, in their order. -/
  frames : y.frames.map Frame.isCall = waitingCalls y.waiting
  /-- What belongs to a parenthesis begins within the output. -/
  bases : ∀ frame ∈ y.frames, frame.base ≤ y.output.length

namespace Levels

/-! ### The stacks of levels -/

theorem waitingCalls_operators (ops : List Operator) (waiting : List Waiting) :
    waitingCalls (ops.map .operator ++ waiting) = waitingCalls waiting := by
  induction ops with
  | nil => rfl
  | cons op ops ih => exact ih

/-- Below the parenthesis of a call waits its name, and below that of a group none does. -/
theorem opensCall_around (o : Opening) (level : Level) (rest : List (Opening × Level)) :
    opensCall (o.caller ++ (level.operators.map .operator ++ outerWaiting rest)) = o.isCall := by
  cases o with
  | group opened => exact opensCall_toYard ⟨level, rest, none⟩
  | call name place opened commas => rfl

theorem waitingCalls_outer (outer : List (Opening × Level)) :
    waitingCalls (outerWaiting outer) = (framesOf outer).map Frame.isCall := by
  induction outer with
  | nil => rfl
  | cons around rest ih =>
      obtain ⟨o, level⟩ := around
      have below : waitingCalls (o.caller ++ (level.operators.map .operator ++ outerWaiting rest)) =
          waitingCalls (outerWaiting rest) := by
        cases o with
        | group opened => exact waitingCalls_operators _ _
        | call name place opened commas => exact waitingCalls_operators _ _
      rw [outerWaiting, waitingCalls, opensCall_around, below, ih]
      rfl

theorem base_le_outerOutput (outer : List (Opening × Level)) :
    ∀ frame ∈ framesOf outer, frame.base ≤ (outerOutput outer).length := by
  induction outer with
  | nil => exact List.forall_mem_nil _
  | cons around rest ih =>
      rw [framesOf, List.forall_mem_cons]
      refine ⟨Nat.le_refl _, fun frame inside => ?_⟩
      have below := ih frame inside
      rw [outerOutput, List.length_append]
      omega

theorem consistent_toYard (s : Levels) : s.toYard.Consistent where
  frames := by
    have settled : waitingCalls s.toYard.waiting = waitingCalls (outerWaiting s.outer) := by
      obtain ⟨inner, outer, callee⟩ := s
      cases callee with
      | none => exact waitingCalls_operators _ _
      | some call => exact waitingCalls_operators _ _
    rw [settled, waitingCalls_outer]
    rfl
  bases := by
    intro frame inside
    have below := base_le_outerOutput s.outer frame inside
    simp only [toYard, List.length_append]
    omega

/-- Every yard that comes up is that of some levels. -/
theorem levels_of_reached {limit : Option Int} {tokens rest : List Token}
    {previous : Option Lexeme} {y : Yard} (reached : Reached limit tokens previous y rest) :
    ∃ s : Levels, y = s.toYard ∧ (s.callee = none ∨ startsOpen rest = true) := by
  induction reached with
  | start => exact ⟨{}, rfl, .inl rfl⟩
  | @step previous y y' t rest _ accepted ih =>
      -- A name only waits for its parenthesis while that is the next token.
      obtain ⟨s, rfl, settled⟩ := ih
      have first := settled.imp_right startsOpen_cons.1
      rw [toYard_accept limit previous (startsOpen rest) s t first] at accepted
      cases taken : s.accept limit previous (startsOpen rest) t with
      | error failure =>
          rw [taken] at accepted
          cases accepted
      | ok s' =>
          rw [taken] at accepted
          cases accepted
          exact ⟨s', rfl, (step_of_accept taken).callee first⟩

/-! ### Balance -/

theorem balancedBehind_cons (opened : Nat) (t : Lexeme) (rest : List Lexeme) :
    Lexeme.BalancedBehind opened (t :: rest) ↔
      (t = .rightParen → 0 < opened) ∧ Lexeme.BalancedBehind (openAfter opened t) rest := by
  cases t <;> simp [Lexeme.BalancedBehind, openAfter]

variable {limit : Option Int} {previous : Option Lexeme} {s s' : Levels}

/-- Only a parenthesis that is open is closed. -/
theorem Step.closes {opensNext : Bool} {t : Token} (step : Step limit previous opensNext s t s')
    (close : t.lexeme = .rightParen) : 0 < s.outer.length := by
  cases step with
  | closeGroup => exact Nat.succ_pos _
  | closeCall => exact Nat.succ_pos _
  | _ => cases close

theorem balancedBehind_of_acceptAll {tokens : List Token} {position : Nat} {e : Expr}
    (accepted : s.acceptAll limit previous tokens = .ok s') (finished : s'.finish position = .ok e) :
    Lexeme.BalancedBehind s.outer.length (tokens.map Token.lexeme) := by
  induction tokens generalizing previous s with
  | nil =>
      cases accepted
      exact List.length_eq_zero_iff.2 (finish_ok finished).2
  | cons t rest ih =>
      obtain ⟨next, step, accepted⟩ := acceptAll_cons_ok accepted
      rw [List.map_cons, balancedBehind_cons, ← step.outer_length]
      exact ⟨step.closes, ih accepted⟩

end Levels

end Yard

/-- The stacks of every yard that comes up fit each other, whatever the tokens and the limit are. Taking
in the tokens gives an expression, in which case the parentheses of the row balance, or it fails for a
cause in the text: no stack is ever found empty when something is taken from it, and no name of a call
is ever found without its parenthesis. -/
theorem ofTokens_consistent (limit : Option Int) (tokens : List Token) :
    (∀ previous y rest, Yard.Reached limit tokens previous y rest → y.Consistent) ∧
      match Expr.ofTokens limit tokens with
      | .ok _ => Lexeme.Balanced (tokens.map Token.lexeme)
      | .error failure => ∃ cause, failure = .malformed cause ∧
          ∀ name place, cause ≠ .danglingCall name place ∧ cause ≠ .unclosedCall name place := by
  refine ⟨fun previous y rest reached => ?_, ?_⟩
  · obtain ⟨s, rfl, -⟩ := Yard.Levels.levels_of_reached reached
    exact s.consistent_toYard
  · rw [Yard.Levels.ofTokens_eq_parse]
    cases parsed : Yard.Levels.parse limit tokens with
    | ok e =>
        obtain ⟨s, accepted, finished⟩ := Yard.Levels.parse_ok parsed
        exact Yard.Levels.balancedBehind_of_acceptAll accepted finished
    | error failure =>
        obtain ⟨cause, rejected, opened⟩ := Yard.Levels.rejects_parse limit tokens failure parsed
        refine ⟨cause, rejected, fun name place => ⟨?_, ?_⟩⟩
        · rintro rfl
          cases opened
        · rintro rfl
          cases opened

end Formula
