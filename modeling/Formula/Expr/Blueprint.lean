import Formula.Expr.Basic
import Formula.Failure
import Formula.Field

/-!
Blueprints: expressions as they are described from outside, with operators by symbol or code, names
that may be no texts, and integers of any size. Building an expression checks every part before the
node that holds it, from left to right.
-/

set_option autoImplicit false

namespace Formula

/-- A number as it was written: a double, or an integer of any size. -/
inductive Number where
  | double (value : Float)
  | integer (n : Int)
  /-- A text that is no number. -/
  | unreadable

/-- The double nearest to a number. An integer must lie in the range of doubles. -/
def Number.toDouble : Number → Fallible Float
  | .double value => .ok value
  | .integer n =>
    let value := Decimal.ofInteger n
    if value.isInf then .error (.wordless .numberTooLarge) else .ok value
  | .unreadable => .error (.wordless .unreadableNumber)

/-- An operator as it was written. -/
inductive OperatorName where
  | symbol (text : String)
  | code (n : Int)
  /-- Neither a text nor a number. -/
  | other

namespace OperatorName

def ofCode (n : Int) : Fallible Operator :=
  match Operator.ofCode? n with
  | some op => .ok op
  | none => .error (.wordless .operatorCode)

def binary : OperatorName → Fallible BinaryOp
  | .symbol text =>
    match BinaryOp.all.find? fun op => op.text == text with
    | some op => .ok op
    | none => .error (.wrongValue (.unknownBinaryOperator text))
  | .code n => do
    match ← ofCode n with
    | .binary op => return op
    | .negate => throw (.wrongValue (.notBinary .negate))
  | .other => .error (.wordless .operatorCode)

def negation : OperatorName → Fallible Unit
  | .symbol text =>
    if text = "-" ∨ text = "neg" then .ok ()
    else .error (.wrongValue (.unknownUnaryOperator text))
  | .code n => do
    match ← ofCode n with
    | .negate => return ()
    | op => throw (.wrongValue (.notUnary op))
  | .other => .error (.wordless .operatorCode)

end OperatorName

/-- The description of an expression. -/
inductive Blueprint where
  | const (value : Number)
  | var (name : Field String)
  | bin (op : OperatorName) (left right : Blueprint)
  | neg (op : OperatorName) (operand : Blueprint)
  | call (name : Field String) (arguments : List Blueprint)

namespace Blueprint

def checkName (complaint : WrongValue) : Field String → Fallible String
  | .given name => if name = "" then .error (.wrongValue complaint) else .ok name
  | _ => .error (.wrongValue complaint)

mutual

def build : Blueprint → Fallible Expr
  | .const value => do
    let v ← value.toDouble
    return .const v
  | .var name => do
    let x ← checkName .variableName name
    return .var x
  | .bin name left right => do
    let l ← build left
    let r ← build right
    let op ← name.binary
    return .bin op l r
  | .neg name operand => do
    let e ← build operand
    name.negation
    return .neg e
  | .call name arguments => do
    let es ← buildAll arguments
    let f ← checkName .calledName name
    return .call f es

def buildAll : List Blueprint → Fallible (List Expr)
  | [] => .ok []
  | b :: rest => do
    let e ← build b
    let es ← buildAll rest
    return e :: es

end

end Blueprint

end Formula
