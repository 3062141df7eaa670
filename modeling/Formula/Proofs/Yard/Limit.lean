import Formula.Proofs.Grammar
import Formula.Proofs.Yard.Simulation

/-!
The limit on open parentheses. A run takes notice of its limit only where a parenthesis is opened,
so within the nesting of its tokens the limit makes no difference, and a run that succeeds under a
limit succeeds without one.
-/

set_option autoImplicit false

namespace Formula.Yard.Levels

/-- The number of open parentheses after a token. -/
def openAfter (opened : Nat) : Lexeme → Nat
  | .leftParen => opened + 1
  | .rightParen => opened - 1
  | .number _ | .identifier _ | .operator _ | .comma => opened

/-- The most parentheses open at once are those in front of a lexeme or the most open behind it. -/
theorem deepestOpen_cons (opened : Nat) (t : Lexeme) (rest : List Lexeme) :
    Lexeme.deepestOpen opened (t :: rest) =
      max opened (Lexeme.deepestOpen (openAfter opened t) rest) := by
  have behind := Lexeme.le_deepestOpen (openAfter opened t) rest
  have kept (same : openAfter opened t = opened) :
      Lexeme.deepestOpen opened rest = max opened (Lexeme.deepestOpen (openAfter opened t) rest) := by
    rw [same] at behind ⊢
    omega
  cases t with
  | rightParen => rfl
  | leftParen =>
      simp only [openAfter, Lexeme.deepestOpen] at behind ⊢
      omega
  | number _ => exact kept rfl
  | identifier _ => exact kept rfl
  | operator _ => exact kept rfl
  | comma => exact kept rfl

theorem Step.outer_length {limit : Option Int} {previous : Option Lexeme} {opensNext : Bool}
    {s s' : Levels} {t : Token} (step : Step limit previous opensNext s t s') :
    s'.outer.length = openAfter s.outer.length t.lexeme := by
  cases step with
  | number => rfl
  | uncalled => rfl
  | called => rfl
  | operator => rfl
  | opening => rfl
  | comma => rfl
  | closeGroup => rfl
  | closeCall => rfl

/-- Only an opening parenthesis asks for the limit. -/
theorem accept_limit (limit : Option Int) (previous : Option Lexeme) (opensNext : Bool)
    (s : Levels) (t : Token)
    (free : t.lexeme = .leftParen → isFull limit (framesOf s.outer) = none) :
    s.accept limit previous opensNext t = s.accept none previous opensNext t := by
  obtain ⟨lexeme, position⟩ := t
  cases lexeme with
  | leftParen =>
      simp only [accept, openParen, free rfl]
      rfl
  | number _ => rfl
  | identifier _ => rfl
  | operator _ => rfl
  | comma => rfl
  | rightParen => rfl

/-- A limit that the nesting keeps within makes no difference. -/
theorem acceptAll_of_nesting_le (n : Int) (previous : Option Lexeme) (s : Levels)
    (tokens : List Token)
    (within : (Lexeme.deepestOpen s.outer.length (tokens.map Token.lexeme) : Int) ≤ n) :
    s.acceptAll (some n) previous tokens = s.acceptAll none previous tokens := by
  induction tokens generalizing previous s with
  | nil => rfl
  | cons t rest ih =>
      simp only [List.map_cons] at within
      have free : t.lexeme = .leftParen → isFull (some n) (framesOf s.outer) = none := by
        intro opens
        have deeper := Lexeme.le_deepestOpen (s.outer.length + 1) (rest.map Token.lexeme)
        rw [opens, Lexeme.deepestOpen] at within
        have room : ¬ n ≤ ((framesOf s.outer).length : Int) := by
          rw [length_framesOf]
          omega
        simp only [isFull, room, ↓reduceIte]
      simp only [acceptAll, accept_limit (some n) previous _ s t free]
      cases accepted : s.accept none previous (startsOpen rest) t with
      | error failure => rfl
      | ok s' =>
          apply ih
          rw [deepestOpen_cons] at within
          rw [(step_of_accept accepted).outer_length]
          omega

/-- A token is only taken in if there are not more parentheses open then than the limit allows. -/
theorem Step.within {n : Int} {previous : Option Lexeme} {opensNext : Bool} {s s' : Levels}
    {t : Token} (step : Step (some n) previous opensNext s t s')
    (within : (s.outer.length : Int) ≤ n) : (s'.outer.length : Int) ≤ n := by
  cases step with
  | number => exact within
  | uncalled => exact within
  | called => exact within
  | operator => exact within
  | comma => exact within
  | opening _ position room =>
      simp only [isFull, ite_eq_right_iff, reduceCtorEq, imp_false, length_framesOf] at room
      simp only [List.length_cons]
      omega
  | closeGroup =>
      simp only [List.length_cons] at within ⊢
      omega
  | closeCall =>
      simp only [List.length_cons] at within ⊢
      omega

/-- A run under a limit never has more parentheses open than the limit allows. -/
theorem deepestOpen_le_of_acceptAll {n : Int} {previous : Option Lexeme} {s s' : Levels}
    {tokens : List Token} (within : (s.outer.length : Int) ≤ n)
    (accepted : s.acceptAll (some n) previous tokens = .ok s') :
    (Lexeme.deepestOpen s.outer.length (tokens.map Token.lexeme) : Int) ≤ n := by
  induction tokens generalizing previous s with
  | nil => exact within
  | cons t rest ih =>
      obtain ⟨next, step, accepted⟩ := acceptAll_cons_ok accepted
      have behind := ih (step.within within) accepted
      rw [step.outer_length] at behind
      rw [List.map_cons, deepestOpen_cons]
      omega

/-- What is accepted under a limit is accepted without one, with the same outcome. -/
theorem acceptAll_unlimited (limit : Option Int) (previous : Option Lexeme) (s s' : Levels)
    (tokens : List Token) (accepted : s.acceptAll limit previous tokens = .ok s') :
    s.acceptAll none previous tokens = .ok s' := by
  induction tokens generalizing previous s with
  | nil => exact accepted
  | cons t rest ih =>
      rw [acceptAll] at accepted ⊢
      have free : t.lexeme = .leftParen → isFull limit (framesOf s.outer) = none := by
        intro opens
        cases full : isFull limit (framesOf s.outer) with
        | none => rfl
        | some n =>
            simp only [accept, opens, openParen, full] at accepted
            cases accepted
      rw [accept_limit limit previous _ s t free] at accepted
      cases step : s.accept none previous (startsOpen rest) t with
      | error failure => rw [step] at accepted; cases accepted
      | ok next =>
          rw [step] at accepted
          exact ih _ next accepted

theorem parse_of_nesting_le (n : Int) (tokens : List Token)
    (within : (Lexeme.nesting (tokens.map Token.lexeme) : Int) ≤ n) :
    parse (some n) tokens = parse none tokens := by
  simp only [parse, acceptAll_of_nesting_le n none {} tokens within]

theorem parse_unlimited (limit : Option Int) (tokens : List Token) (e : Expr)
    (accepted : parse limit tokens = .ok e) : parse none tokens = .ok e := by
  obtain ⟨s, run, finished⟩ := parse_ok accepted
  rw [parse, acceptAll_unlimited limit none {} s tokens run]
  exact finished

/-- A limit that is not negative only rejects the rows that are nested too deep for it. -/
theorem parse_limit_iff {n : Int} (natural : 0 ≤ n) (tokens : List Token) (e : Expr) :
    parse (some n) tokens = .ok e ↔
      parse none tokens = .ok e ∧ (Lexeme.nesting (tokens.map Token.lexeme) : Int) ≤ n := by
  constructor
  · intro parsed
    obtain ⟨s, run, -⟩ := parse_ok parsed
    exact ⟨parse_unlimited (some n) tokens e parsed, deepestOpen_le_of_acceptAll natural run⟩
  · rintro ⟨parsed, within⟩
    rwa [parse_of_nesting_le n tokens within]

end Formula.Yard.Levels
