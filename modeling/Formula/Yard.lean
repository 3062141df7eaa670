import Formula.Expr.Basic
import Formula.Failure
import Formula.Token

/-!
The shunting yard: tokens become an expression on three stacks. Operators and open parentheses
wait until the tokens behind them decide how far they reach, finished parts stand in the output,
and a frame for every open parenthesis remembers where its part of the output begins.
-/

set_option autoImplicit false

namespace Formula

/-- What waits for the tokens behind it. -/
inductive Waiting where
  | operator (op : Operator)
  | call (name : String) (position : Nat)
  | openParen (position : Nat)
  deriving DecidableEq

/-- An open parenthesis: the height of the output in front of it, whether it belongs to a call,
and the commas seen in it. -/
structure Frame where
  base : Nat
  isCall : Bool
  commas : Nat
  deriving DecidableEq

/-- The three stacks, top first. -/
structure Yard where
  waiting : List Waiting := []
  output : List Expr := []
  frames : List Frame := []

/-- The identifiers that stand for numbers. -/
def reserved? (name : String) : Option Float :=
  if name = "pi" then some 3.141592653589793
  else if name = "e" then some 2.718281828459045
  else none

def Expr.ofIdentifier (name : String) : Expr :=
  match reserved? name with
  | some value => .const value
  | none => .var name

namespace Operator

/-- A waiting operator is applied before another one is put behind it, unless the other binds
tighter. Exponentiation binds to its own operand, so a negation in front of it waits. -/
def precedes (waiting incoming : Operator) : Bool :=
  if incoming = .binary .pow ∧ waiting = .negate then false
  else incoming.precedence < waiting.precedence ||
    (waiting.precedence == incoming.precedence && !incoming.rightFirst)

end Operator

namespace Lexeme

/-- After these a minus sign is a negation. -/
def expectsOperand : Option Lexeme → Bool
  | none | some (.operator _) | some .leftParen | some .comma => true
  | some (.number _) | some (.identifier _) | some .rightParen => false

/-- The operator that a sign stands for, given what is in front of it. -/
def operatorAfter (previous : Option Lexeme) (op : BinaryOp) : Operator :=
  if op = .sub && expectsOperand previous then .negate else .binary op

end Lexeme

namespace Yard

def reject {α : Type} (cause : Malformation) : Fallible α := .error (.malformed cause)

/-- The stacks do not fit each other. -/
def disagree {α : Type} : Fallible α := .error (.wordless .stacksDisagree)

/-- The height of the output in front of the innermost open parenthesis. -/
def base (frames : List Frame) : Nat :=
  match frames with
  | [] => 0
  | frame :: _ => frame.base

/-- Apply an operator to the last parts of the output above a height. -/
def applyOperator (op : Operator) (base position : Nat) (output : List Expr) :
    Fallible (List Expr) :=
  match op with
  | .negate =>
    if output.length < base + 1 then reject (.missingOperand position)
    else match output with
      | operand :: rest => .ok (.neg operand :: rest)
      | _ => disagree
  | .binary op =>
    if output.length < base + 2 then reject (.missingOperand position)
    else match output with
      | right :: left :: rest => .ok (.bin op left right :: rest)
      | _ => disagree

/-- Apply the waiting operators that precede an incoming one. -/
def applyPreceding (incoming : Operator) (base position : Nat) :
    List Waiting → List Expr → Fallible (List Waiting × List Expr)
  | .operator op :: waiting, output =>
    if op.precedes incoming then do
      let output ← applyOperator op base position output
      applyPreceding incoming base position waiting output
    else .ok (.operator op :: waiting, output)
  | waiting, output => .ok (waiting, output)

/-- Apply the waiting operators up to the innermost open parenthesis. -/
def applyToParen (base position : Nat) :
    List Waiting → List Expr → Fallible (List Waiting × List Expr)
  | .operator op :: waiting, output => do
    let output ← applyOperator op base position output
    applyToParen base position waiting output
  | .call name place :: _, _ => reject (.danglingCall name place)
  | waiting, output => .ok (waiting, output)

def applyAll (base position : Nat) : List Waiting → List Expr → Fallible (List Expr)
  | [], output => .ok output
  | .operator op :: waiting, output => do
    let output ← applyOperator op base position output
    applyAll base position waiting output
  | .openParen place :: _, _ => reject (.unclosedOpen place)
  | .call name place :: _, _ => reject (.unclosedCall name place)

def putPart (y : Yard) (e : Expr) : Yard := { y with output := e :: y.output }

/-- An operator waits, after those that precede it were applied. -/
def putOperator (y : Yard) (op : Operator) (position : Nat) : Fallible Yard := do
  let (waiting, output) ← applyPreceding op (base y.frames) position y.waiting y.output
  return { y with waiting := .operator op :: waiting, output }

/-- An identifier in front of an open parenthesis names a function; else it is a part. -/
def putIdentifier (y : Yard) (name : String) (position : Nat) (isCalled : Bool) : Yard :=
  if isCalled then { y with waiting := .call name position :: y.waiting }
  else y.putPart (.ofIdentifier name)

/-- The parenthesis about to be opened belongs to a call. -/
def opensCall : List Waiting → Bool
  | .call _ _ :: _ => true
  | _ => false

def isFull (limit : Option Int) (frames : List Frame) : Option Int :=
  match limit with
  | none => none
  | some n => if n ≤ (frames.length : Int) then some n else none

def openParen (limit : Option Int) (y : Yard) (position : Nat) : Fallible Yard :=
  match isFull limit y.frames with
  | some n => reject (.tooManyOpen n position)
  | none => .ok
    { y with
      waiting := .openParen position :: y.waiting
      frames := ⟨y.output.length, opensCall y.waiting, 0⟩ :: y.frames }

/-- End an argument: exactly one part stands between this comma and the one before it. -/
def endArgument (y : Yard) (position : Nat) : Fallible Yard := do
  let (waiting, output) ← applyToParen (base y.frames) position y.waiting y.output
  match y.frames with
  | [] => reject (.commaOutsideCall position)
  | frame :: frames =>
    if !frame.isCall then reject (.commaOutsideCall position)
    else
      let parts := output.length - frame.base
      if parts < frame.commas + 1 then reject (.emptyArgument position)
      else if frame.commas + 1 < parts then reject (.crowdedArgument position)
      else .ok ⟨waiting, output, { frame with commas := frame.commas + 1 } :: frames⟩

/-- A group that is closed holds exactly one part. -/
def closeGroup (waiting : List Waiting) (output : List Expr) (frames : List Frame)
    (parts position : Nat) : Fallible Yard :=
  if parts = 0 then reject (.emptyGroup position)
  else if 1 < parts then reject (.crowdedGroup position)
  else .ok ⟨waiting, output, frames⟩

/-- A call that is closed has one argument more than commas, or none at all. -/
def closeCall (name : String) (waiting : List Waiting) (output : List Expr)
    (frames : List Frame) (commas parts position : Nat) : Fallible Yard :=
  let expected := if commas = 0 ∧ parts = 0 then 0 else commas + 1
  if parts < expected then reject (.fewArguments name position)
  else if expected < parts then reject (.manyArguments name position)
  else .ok ⟨waiting, .call name (output.take parts).reverse :: output.drop parts, frames⟩

def closeParen (y : Yard) (position : Nat) : Fallible Yard := do
  let (waiting, output) ← applyToParen (base y.frames) position y.waiting y.output
  match waiting, y.frames with
  | [], _ => reject (.unmatchedClose position)
  | _ :: waiting, frame :: frames =>
    let parts := output.length - frame.base
    if frame.isCall then
      match waiting with
      | .call name _ :: waiting =>
        closeCall name waiting output frames frame.commas parts position
      | _ => disagree
    else closeGroup waiting output frames parts position
  | _ :: _, [] => disagree

/-- Take in one token, given the one before it and whether an open parenthesis follows. -/
def accept (limit : Option Int) (previous : Option Lexeme) (opensNext : Bool) (y : Yard)
    (t : Token) : Fallible Yard :=
  match t.lexeme with
  | .number text => .ok (y.putPart (.const (Decimal.readUnsigned text.toList)))
  | .identifier name => .ok (y.putIdentifier name t.position opensNext)
  | .operator op => y.putOperator (Lexeme.operatorAfter previous op) t.position
  | .leftParen => y.openParen limit t.position
  | .comma => y.endArgument t.position
  | .rightParen => y.closeParen t.position

def startsOpen : List Token → Bool
  | t :: _ => t.lexeme == .leftParen
  | [] => false

def acceptAll (limit : Option Int) : Option Lexeme → Yard → List Token → Fallible Yard
  | _, y, [] => .ok y
  | previous, y, t :: rest => do
    let y ← y.accept limit previous (startsOpen rest) t
    acceptAll limit (some t.lexeme) y rest

def finish (y : Yard) (position : Nat) : Fallible Expr := do
  let output ← applyAll (base y.frames) position y.waiting y.output
  match output with
  | [] => reject .emptyExpression
  | [e] => .ok e
  | parts => reject (.crowdedExpression parts.length)

end Yard

/-- The expression of a row of tokens. The limit bounds how many parentheses may be open at once;
without one there may be any number. -/
def Expr.ofTokens (limit : Option Int) (tokens : List Token) : Fallible Expr := do
  let y ← Yard.acceptAll limit none {} tokens
  y.finish (Token.endOf tokens)

end Formula
