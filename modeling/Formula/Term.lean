import Formula.Decimal.Layout
import Formula.Expr.Basic
import Formula.Failure

/-!
Terms of computer algebra: the constructors that an algebra system has for numbers, symbols, sums,
products, powers and functions. Differences, quotients and negations are written with the factor
and the exponent minus one.
-/

set_option autoImplicit false

namespace Formula

/-- The functions that an algebra system knows by name. -/
inductive KnownFunction where
  | sin
  | cos
  | exp
  | log
  | abs
  | sign
  | max
  deriving DecidableEq

namespace KnownFunction

def name : KnownFunction → String
  | .sin => "sin"
  | .cos => "cos"
  | .exp => "exp"
  | .log => "log"
  | .abs => "Abs"
  | .sign => "sign"
  | .max => "Max"

/-- The known function for a function of expressions. -/
def ofCalled? (called : String) : Option KnownFunction :=
  match called with
  | "sin" => some .sin
  | "cos" => some .cos
  | "exp" => some .exp
  | "ln" => some .log
  | "abs" => some .abs
  | "sign" => some .sign
  | "max" => some .max
  | _ => none

end KnownFunction

/-- A term as it is built up. -/
inductive Term where
  /-- An exact integer. -/
  | integer (n : Int)
  /-- A floating-point number. -/
  | float (value : Float)
  | symbol (name : String)
  /-- A small integer that stands for itself. -/
  | unit (n : Int)
  | add (left right : Term)
  | mul (left right : Term)
  | pow (base exponent : Term)
  | known (f : KnownFunction) (arguments : List Term)
  /-- The step at zero, with the value one there. -/
  | step (argument : Term)
  | unknown (name : String) (arguments : List Term)
  deriving Inhabited

namespace Term

def minusOne : Term := .unit (-1)

/-- A constant is an exact integer if its value is one. -/
def ofConstant (value : Float) : Term :=
  match Decimal.integer? value with
  | some n => .integer n
  | none => .float value

def ofOperation (op : BinaryOp) (left right : Term) : Term :=
  match op with
  | .add => .add left right
  | .sub => .add left (.mul minusOne right)
  | .mul => .mul left right
  | .div => .mul left (.pow right minusOne)
  | .pow => .pow left right

/-- The term of a call. The step has exactly one argument. -/
def ofCall (called : String) (arguments : List Term) : Fallible Term :=
  match KnownFunction.ofCalled? called with
  | some f => .ok (.known f arguments)
  | none =>
    if called = "heaviside" then
      match arguments with
      | [argument] => .ok (.step argument)
      | _ => .error (.wordless .stepArguments)
    else .ok (.unknown called arguments)

end Term

namespace Expr

mutual

def toTerm : Expr → Fallible Term
  | .const value => .ok (.ofConstant value)
  | .var name => .ok (.symbol name)
  | .bin op left right => do
    let l ← toTerm left
    let r ← toTerm right
    return .ofOperation op l r
  | .neg operand => do
    let t ← toTerm operand
    return .mul .minusOne t
  | .call name arguments => do
    let ts ← toTerms arguments
    Term.ofCall name ts

def toTerms : List Expr → Fallible (List Term)
  | [] => .ok []
  | e :: rest => do
    let t ← toTerm e
    let ts ← toTerms rest
    return t :: ts

end

end Expr

end Formula
