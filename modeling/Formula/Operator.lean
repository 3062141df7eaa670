/-!
The operators of the infix notation: five between two operands and the negation in front of one.
-/

set_option autoImplicit false

namespace Formula

inductive BinaryOp where
  | add
  | sub
  | mul
  | div
  | pow
  deriving DecidableEq, Inhabited

inductive Operator where
  | binary (op : BinaryOp)
  | negate
  deriving DecidableEq, Inhabited

namespace BinaryOp

/-- The sign that stands between the operands. -/
def symbol : BinaryOp → Char
  | .add => '+'
  | .sub => '-'
  | .mul => '*'
  | .div => '/'
  | .pow => '^'

def text (op : BinaryOp) : String := op.symbol.toString

def all : List BinaryOp := [.add, .sub, .mul, .div, .pow]

def ofSymbol? (c : Char) : Option BinaryOp := all.find? fun op => op.symbol == c

/-- The operators whose operands may change places. -/
def commutes : BinaryOp → Bool
  | .add | .mul => true
  | _ => false

end BinaryOp

namespace Operator

/-- Every operator, in the order of the codes. -/
def all : List Operator := BinaryOp.all.map .binary ++ [.negate]

def name : Operator → String
  | .binary .add => "ADD"
  | .binary .sub => "SUB"
  | .binary .mul => "MUL"
  | .binary .div => "DIV"
  | .binary .pow => "POW"
  | .negate => "NEG"

def ofName? (name : String) : Option Operator := all.find? fun op => op.name == name

/-- The operator of a code: its place in the list of all operators. -/
def ofCode? : Int → Option Operator
  | .ofNat n => all[n]?
  | .negSucc _ => none

/-- The tighter of two operators binds its operands first. -/
def precedence : Operator → Nat
  | .negate => 5
  | .binary .pow => 4
  | .binary .mul | .binary .div => 3
  | .binary .add | .binary .sub => 2

/-- In a row of one precedence the right operator is applied first. -/
def rightFirst : Operator → Bool
  | .binary .pow | .negate => true
  | _ => false

end Operator

end Formula
