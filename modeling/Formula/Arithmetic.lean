import Formula.Failure

/-!
Arithmetic on doubles. Plain arithmetic follows the floating-point standard: a quotient by zero
is an infinity or no number. Strict arithmetic refuses to divide by zero, and refuses a result
that is infinite though every operand is finite.
-/

set_option autoImplicit false

namespace Formula

/-- A power of zero with a positive exponent. An odd integer keeps the sign of the zero. -/
def zeroPower (zero exponent : Float) : Float :=
  match Decimal.integer? exponent with
  | some n => if n % 2 = 1 then zero else 0.0
  | none => 0.0

/-- A power. All but those of zero with positive exponents are the library's. -/
def power (base exponent : Float) : Float :=
  if base == 0.0 && 0.0 < exponent then zeroPower base exponent else Float.pow base exponent

namespace BinaryOp

def plain : BinaryOp → Float → Float → Float
  | .add, a, b => a + b
  | .sub, a, b => a - b
  | .mul, a, b => a * b
  | .div, a, b => a / b
  | .pow, a, b => power a b

/-- The operation divides by zero: a quotient with divisor zero, or a power of zero with a
negative exponent, which is the reciprocal of zero. -/
def dividesByZero : BinaryOp → Float → Float → Bool
  | .div, _, b => b == 0.0
  | .pow, a, b => a == 0.0 && b < 0.0
  | _, _, _ => false

end BinaryOp

/-- In strict arithmetic finite operands may not yield an infinity. -/
def checkOverflow (strict : Bool) (operation : Operation) (operands : List Float)
    (result : Float) : Fallible Float :=
  if strict && result.isInf && operands.all Float.isFinite then
    .error (.arithmetic (.overflow operation result))
  else .ok result

def BinaryOp.value (strict : Bool) (op : BinaryOp) (a b : Float) : Fallible Float :=
  if strict && op.dividesByZero a b then
    .error (.arithmetic (.zeroDivision op a b))
  else checkOverflow strict (.operator op) [a, b] (op.plain a b)

namespace Operator

/-- The value of an operator between two operands; a negation has none. -/
def betweenValue (strict : Bool) : Operator → Float → Float → Fallible Float
  | .binary op, a, b => op.value strict a b
  | .negate, _, _ => .ok Decimal.notANumber

/-- The value of an operator in front of one operand; only a negation has one. -/
def frontValue : Operator → Float → Float
  | .negate, a => -a
  | .binary _, _ => Decimal.notANumber

end Operator

/-- The plain value under an operator's code; other codes yield no number. -/
def codedBinary (code : Int) (a b : Float) : Float :=
  match Operator.ofCode? code with
  | some (.binary op) => op.plain a b
  | _ => Decimal.notANumber

def codedUnary (code : Int) (a : Float) : Float :=
  match Operator.ofCode? code with
  | some op => op.frontValue a
  | none => Decimal.notANumber

end Formula
