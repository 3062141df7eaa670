import Formula.Yard

/-!
The yard by levels. The three stacks of the yard always fall into levels, one for the whole text and
one more for every open parenthesis, and each level has its own waiting operators and its own
finished parts. A run over levels never looks at heights or markers. What one token can do to levels
is a `Step`, with everything that was checked on the way.
-/

set_option autoImplicit false

namespace Formula

namespace Operator

/-- Apply an operator to the last parts of a level, if they are there. -/
def applyTo : Operator → List Expr → Option (List Expr)
  | .negate, operand :: parts => some (.neg operand :: parts)
  | .binary op, right :: left :: parts => some (.bin op left right :: parts)
  | _, _ => none

def foldAll : List Operator → List Expr → Option (List Expr)
  | [], parts => some parts
  | op :: ops, parts => (op.applyTo parts).bind (foldAll ops)

/-- Apply the operators in front of a row that precede an incoming one; the others go on waiting. -/
def foldPreceding (incoming : Operator) :
    List Operator → List Expr → Option (List Operator × List Expr)
  | [], parts => some ([], parts)
  | op :: ops, parts =>
    if op.precedes incoming then (op.applyTo parts).bind (foldPreceding incoming ops)
    else some (op :: ops, parts)

end Operator

namespace Yard

/-- What belongs to one pair of parentheses or to the whole text: waiting operators and finished
parts, the last ones first. -/
structure Level where
  operators : List Operator := []
  parts : List Expr := []

/-- An open parenthesis of a group, or of a call: the name and its place, the place of the
parenthesis, the commas seen in it. -/
inductive Opening where
  | group (position : Nat)
  | call (name : String) (place position commas : Nat)

namespace Opening

def position : Opening → Nat
  | .group position => position
  | .call _ _ position _ => position

def isCall : Opening → Bool
  | .group _ => false
  | .call .. => true

def commas : Opening → Nat
  | .group _ => 0
  | .call _ _ _ commas => commas

/-- The opening of the parenthesis behind a call's name, or of a group. -/
def behind (position : Nat) : Option (String × Nat) → Opening
  | none => .group position
  | some (name, place) => .call name place position 0

/-- What waits behind an open parenthesis: the name of its call. -/
def caller : Opening → List Waiting
  | .group _ => []
  | .call name place _ _ => [.call name place]

end Opening

/-- The innermost level, the openings with the levels around them, and the name of a call whose
parenthesis comes next. -/
structure Levels where
  inner : Level := {}
  outer : List (Opening × Level) := []
  callee : Option (String × Nat) := none

namespace Levels

/-- What waits for the name of a call. -/
def callMarker : Option (String × Nat) → List Waiting
  | none => []
  | some (name, position) => [.call name position]

def outerWaiting : List (Opening × Level) → List Waiting
  | [] => []
  | (o, level) :: rest =>
    .openParen o.position :: (o.caller ++ (level.operators.map .operator ++ outerWaiting rest))

def outerOutput : List (Opening × Level) → List Expr
  | [] => []
  | (_, level) :: rest => level.parts ++ outerOutput rest

def framesOf : List (Opening × Level) → List Frame
  | [] => []
  | (o, level) :: rest =>
    ⟨(level.parts ++ outerOutput rest).length, o.isCall, o.commas⟩ :: framesOf rest

/-- The three stacks that levels stand for. -/
def toYard (s : Levels) : Yard where
  waiting := callMarker s.callee ++ (s.inner.operators.map .operator ++ outerWaiting s.outer)
  output := s.inner.parts ++ outerOutput s.outer
  frames := framesOf s.outer

def putPart (s : Levels) (e : Expr) : Levels :=
  { s with inner := { s.inner with parts := e :: s.inner.parts } }

/-- An operator waits in the innermost level, after those that precede it were applied. -/
def putOperator (s : Levels) (op : Operator) (position : Nat) : Fallible Levels :=
  match op.foldPreceding s.inner.operators s.inner.parts with
  | some (ops, parts) => .ok { s with inner := ⟨op :: ops, parts⟩ }
  | none => reject (.missingOperand position)

/-- An identifier in front of an open parenthesis names a function; else it is a part. -/
def putIdentifier (s : Levels) (name : String) (position : Nat) (isCalled : Bool) : Levels :=
  if isCalled then { s with callee := some (name, position) } else s.putPart (.ofIdentifier name)

def openParen (limit : Option Int) (s : Levels) (position : Nat) : Fallible Levels :=
  match isFull limit (framesOf s.outer) with
  | some n => reject (.tooManyOpen n position)
  | none => .ok ⟨{}, (.behind position s.callee, s.inner) :: s.outer, none⟩

/-- End an argument of the innermost call. -/
def endArgument (s : Levels) (position : Nat) : Fallible Levels :=
  match Operator.foldAll s.inner.operators s.inner.parts with
  | none => reject (.missingOperand position)
  | some parts =>
    match s.outer with
    | [] | (.group _, _) :: _ => reject (.commaOutsideCall position)
    | (.call name place opened commas, level) :: rest =>
      if parts.length < commas + 1 then reject (.emptyArgument position)
      else if commas + 1 < parts.length then reject (.crowdedArgument position)
      else .ok ⟨⟨[], parts⟩, (.call name place opened (commas + 1), level) :: rest, none⟩

/-- Give the parts of a closed level to the level around it. -/
def close (o : Opening) (level : Level) (parts : List Expr) (position : Nat) : Fallible Level :=
  match o with
  | .group _ =>
    if parts.length = 0 then reject (.emptyGroup position)
    else if 1 < parts.length then reject (.crowdedGroup position)
    else .ok { level with parts := parts ++ level.parts }
  | .call name _ _ commas =>
    let expected := if commas = 0 ∧ parts.length = 0 then 0 else commas + 1
    if parts.length < expected then reject (.fewArguments name position)
    else if expected < parts.length then reject (.manyArguments name position)
    else .ok { level with parts := .call name parts.reverse :: level.parts }

def closeParen (s : Levels) (position : Nat) : Fallible Levels :=
  match Operator.foldAll s.inner.operators s.inner.parts with
  | none => reject (.missingOperand position)
  | some parts =>
    match s.outer with
    | [] => reject (.unmatchedClose position)
    | (o, level) :: rest =>
      (close o level parts position).map fun level => ⟨level, rest, none⟩

def accept (limit : Option Int) (previous : Option Lexeme) (opensNext : Bool) (s : Levels)
    (t : Token) : Fallible Levels :=
  match t.lexeme with
  | .number text => .ok (s.putPart (.const (Decimal.readUnsigned text.toList)))
  | .identifier name => .ok (s.putIdentifier name t.position opensNext)
  | .operator op => s.putOperator (Lexeme.operatorAfter previous op) t.position
  | .leftParen => s.openParen limit t.position
  | .comma => s.endArgument t.position
  | .rightParen => s.closeParen t.position

def acceptAll (limit : Option Int) : Option Lexeme → Levels → List Token → Fallible Levels
  | _, s, [] => .ok s
  | previous, s, t :: rest =>
    (s.accept limit previous (startsOpen rest) t).bind fun s =>
      acceptAll limit (some t.lexeme) s rest

/-- The one part of the whole text that is left in the end. -/
def finish (s : Levels) (position : Nat) : Fallible Expr :=
  match Operator.foldAll s.inner.operators s.inner.parts with
  | none => reject (.missingOperand position)
  | some parts =>
    match s.outer, parts with
    | (o, _) :: _, _ => reject (.unclosedOpen o.position)
    | [], [] => reject .emptyExpression
    | [], [e] => .ok e
    | [], parts => reject (.crowdedExpression parts.length)

def parse (limit : Option Int) (tokens : List Token) : Fallible Expr :=
  (acceptAll limit none {} tokens).bind fun s => s.finish (Token.endOf tokens)

/-! ### What a token can do -/

/-- What taking in a token does when it succeeds. -/
inductive Step (limit : Option Int) (previous : Option Lexeme) (opensNext : Bool) :
    Levels → Token → Levels → Prop
  | number (s : Levels) (text : String) (position : Nat) :
      Step limit previous opensNext s ⟨.number text, position⟩
        (s.putPart (.const (Decimal.readUnsigned text.toList)))
  | uncalled (s : Levels) (name : String) (position : Nat) (stands : opensNext = false) :
      Step limit previous opensNext s ⟨.identifier name, position⟩
        (s.putPart (.ofIdentifier name))
  | called (s : Levels) (name : String) (position : Nat) (opens : opensNext = true) :
      Step limit previous opensNext s ⟨.identifier name, position⟩
        { s with callee := some (name, position) }
  | operator (s : Levels) (op : BinaryOp) (position : Nat) {ops : List Operator}
      {parts : List Expr}
      (folded : (Lexeme.operatorAfter previous op).foldPreceding s.inner.operators
        s.inner.parts = some (ops, parts)) :
      Step limit previous opensNext s ⟨.operator op, position⟩
        { s with inner := ⟨Lexeme.operatorAfter previous op :: ops, parts⟩ }
  | opening (s : Levels) (position : Nat) (room : isFull limit (framesOf s.outer) = none) :
      Step limit previous opensNext s ⟨.leftParen, position⟩
        ⟨{}, (.behind position s.callee, s.inner) :: s.outer, none⟩
  | comma (inner level : Level) (rest : List (Opening × Level)) (callee : Option (String × Nat))
      (name : String) (place opened commas position : Nat) {parts : List Expr}
      (folded : Operator.foldAll inner.operators inner.parts = some parts)
      (filled : parts.length = commas + 1) :
      Step limit previous opensNext
        ⟨inner, (.call name place opened commas, level) :: rest, callee⟩ ⟨.comma, position⟩
        ⟨⟨[], parts⟩, (.call name place opened (commas + 1), level) :: rest, none⟩
  | closeGroup (inner level : Level) (rest : List (Opening × Level))
      (callee : Option (String × Nat)) (opened position : Nat) {e : Expr}
      (folded : Operator.foldAll inner.operators inner.parts = some [e]) :
      Step limit previous opensNext
        ⟨inner, (.group opened, level) :: rest, callee⟩ ⟨.rightParen, position⟩
        ⟨{ level with parts := e :: level.parts }, rest, none⟩
  | closeCall (inner level : Level) (rest : List (Opening × Level))
      (callee : Option (String × Nat)) (name : String) (place opened commas position : Nat)
      {parts : List Expr}
      (folded : Operator.foldAll inner.operators inner.parts = some parts)
      (filled : parts.length = commas + 1 ∨ commas = 0 ∧ parts = []) :
      Step limit previous opensNext
        ⟨inner, (.call name place opened commas, level) :: rest, callee⟩ ⟨.rightParen, position⟩
        ⟨{ level with parts := .call name parts.reverse :: level.parts }, rest, none⟩

variable {limit : Option Int} {previous : Option Lexeme} {opensNext : Bool} {s s' : Levels}

theorem step_of_endArgument {position : Nat} (ended : s.endArgument position = .ok s') :
    Step limit previous opensNext s ⟨.comma, position⟩ s' := by
  obtain ⟨inner, outer, callee⟩ := s
  simp only [endArgument] at ended
  split at ended
  · cases ended
  · next parts folded =>
      match outer with
      | [] => cases ended
      | (.group _, _) :: _ => cases ended
      | (.call name place opened commas, level) :: rest =>
          simp only at ended
          split at ended
          · cases ended
          · next enough =>
              split at ended
              · cases ended
              · next few =>
                  cases ended
                  exact .comma inner level rest callee name place opened commas position folded
                    (by omega)

theorem close_group_ok {opened position : Nat} {level level' : Level} {parts : List Expr}
    (closed : close (.group opened) level parts position = .ok level') :
    ∃ e, parts = [e] ∧ level' = { level with parts := e :: level.parts } := by
  simp only [close] at closed
  split at closed
  · cases closed
  · next present =>
      split at closed
      · cases closed
      · next few =>
          cases closed
          obtain ⟨e, rfl⟩ := List.length_eq_one_iff.1 (show parts.length = 1 by omega)
          exact ⟨e, rfl, rfl⟩

theorem close_call_ok {name : String} {place opened commas position : Nat} {level level' : Level}
    {parts : List Expr}
    (closed : close (.call name place opened commas) level parts position = .ok level') :
    (parts.length = commas + 1 ∨ commas = 0 ∧ parts = []) ∧
      level' = { level with parts := .call name parts.reverse :: level.parts } := by
  by_cases empty : commas = 0 ∧ parts.length = 0
  · obtain ⟨rfl, none⟩ := empty
    rw [List.length_eq_zero_iff] at none
    subst none
    cases closed
    exact ⟨.inr ⟨rfl, rfl⟩, rfl⟩
  · simp only [close, empty, ↓reduceIte] at closed
    split at closed
    · cases closed
    · next enough =>
        split at closed
        · cases closed
        · next few =>
            cases closed
            exact ⟨.inl (by omega), rfl⟩

theorem step_of_closeParen {position : Nat} (closed : s.closeParen position = .ok s') :
    Step limit previous opensNext s ⟨.rightParen, position⟩ s' := by
  obtain ⟨inner, outer, callee⟩ := s
  simp only [closeParen] at closed
  split at closed
  · cases closed
  · next parts folded =>
      match outer with
      | [] => cases closed
      | (o, level) :: rest =>
          cases given : close o level parts position with
          | error failure => simp only [given, Except.map] at closed; cases closed
          | ok level' =>
              simp only [given, Except.map] at closed
              cases closed
              cases o with
              | group opened =>
                  obtain ⟨e, rfl, rfl⟩ := close_group_ok given
                  exact .closeGroup inner level rest callee opened position folded
              | call name place opened commas =>
                  obtain ⟨filled, rfl⟩ := close_call_ok given
                  exact .closeCall inner level rest callee name place opened commas position
                    folded filled

theorem step_of_accept {t : Token} (accepted : s.accept limit previous opensNext t = .ok s') :
    Step limit previous opensNext s t s' := by
  obtain ⟨lexeme, position⟩ := t
  cases lexeme with
  | number text => cases accepted; exact .number s text position
  | identifier name =>
      cases opensNext with
      | true => cases accepted; exact .called s name position rfl
      | false => cases accepted; exact .uncalled s name position rfl
  | operator op =>
      simp only [accept, putOperator] at accepted
      split at accepted
      · next ops parts folded => cases accepted; exact .operator s op position folded
      · cases accepted
  | leftParen =>
      simp only [accept, openParen] at accepted
      split at accepted
      · cases accepted
      · next room => cases accepted; exact .opening s position room
  | comma => exact step_of_endArgument accepted
  | rightParen => exact step_of_closeParen accepted

theorem accept_of_step {t : Token} (step : Step limit previous opensNext s t s') :
    s.accept limit previous opensNext t = .ok s' := by
  cases step with
  | number => rfl
  | uncalled _ name position stands =>
      subst stands
      rfl
  | called _ name position opens =>
      subst opens
      rfl
  | operator _ op position folded => simp only [accept, putOperator, folded]
  | opening _ position room => simp only [accept, openParen, room]
  | comma inner level rest callee name place opened commas position folded filled =>
      simp only [accept, endArgument, folded, filled, Nat.lt_irrefl, ↓reduceIte]
  | closeGroup inner level rest callee opened position folded =>
      simp only [accept, closeParen, folded]
      rfl
  | closeCall inner level rest callee name place opened commas position folded filled =>
      have counted : ∀ parts : List Expr, parts.length = commas + 1 ∨ commas = 0 ∧ parts = [] →
          (if commas = 0 ∧ parts.length = 0 then 0 else commas + 1) = parts.length := by
        rintro parts (full | ⟨rfl, rfl⟩)
        · rw [if_neg (by omega), full]
        · rfl
      simp only [accept, closeParen, folded, close, counted _ filled, Nat.lt_irrefl, ↓reduceIte]
      rfl

theorem acceptAll_cons {t : Token} {rest : List Token}
    (accepted : s.accept limit previous (startsOpen rest) t = .ok s') :
    s.acceptAll limit previous (t :: rest) = s'.acceptAll limit (some t.lexeme) rest := by
  rw [acceptAll, accepted]
  rfl

/-- A run that succeeds takes one step and then runs on. -/
theorem acceptAll_cons_ok {t : Token} {rest : List Token}
    (accepted : s.acceptAll limit previous (t :: rest) = .ok s') :
    ∃ next, Step limit previous (startsOpen rest) s t next ∧
      next.acceptAll limit (some t.lexeme) rest = .ok s' := by
  rw [acceptAll] at accepted
  cases step : s.accept limit previous (startsOpen rest) t with
  | error failure => rw [step] at accepted; cases accepted
  | ok next =>
      rw [step] at accepted
      exact ⟨next, step_of_accept step, accepted⟩

theorem finish_ok {position : Nat} {e : Expr} (finished : s.finish position = .ok e) :
    Operator.foldAll s.inner.operators s.inner.parts = some [e] ∧ s.outer = [] := by
  rw [finish] at finished
  split at finished
  · cases finished
  · next parts folded =>
      split at finished
      · cases finished
      · cases finished
      · next whole =>
          cases finished
          exact ⟨folded, whole⟩
      · cases finished

theorem parse_ok {tokens : List Token} {e : Expr} (parsed : parse limit tokens = .ok e) :
    ∃ s, acceptAll limit none {} tokens = .ok s ∧ s.finish (Token.endOf tokens) = .ok e := by
  rw [parse] at parsed
  cases accepted : acceptAll limit none {} tokens with
  | error failure => rw [accepted] at parsed; cases parsed
  | ok s =>
      rw [accepted] at parsed
      exact ⟨s, rfl, parsed⟩

end Levels

end Yard

end Formula
