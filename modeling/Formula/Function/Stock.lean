import Formula.Context

/-!
Ready-made values and rules for the definition of further functions.
-/

set_option autoImplicit false

namespace Formula

namespace Evaluator

/-- The sum from zero, left to right. -/
def sum : Evaluator := fun values => .ok (values.foldl (· + ·) 0.0)

def product : Evaluator := fun values => .ok (values.foldl (· * ·) 1.0)

def count : Evaluator := fun values => .ok (Float.ofNat values.length)

def first : Evaluator
  | a :: _ => .ok a
  | [] => .error (.wordless .missingArgument)

def last : Evaluator := fun values =>
  match values.getLast? with
  | some a => .ok a
  | none => .error (.wordless .missingArgument)

def difference : Evaluator
  | a :: b :: _ => .ok (a - b)
  | _ => .error (.wordless .missingArgument)

def square : Evaluator
  | a :: _ => .ok (a * a)
  | [] => .error (.wordless .missingArgument)

/-- One value whatever the arguments. -/
def constant (value : Float) : Evaluator := fun _ => .ok value

/-- No value whatever the arguments, with a reason. -/
def refusing (reason : String) : Evaluator := fun _ => .error (.wrongValue (.refused reason))

end Evaluator

namespace Rule

def zero : Rule Context := fun _ _ => .done .zero

/-- The chain rule of a square: twice the first argument times its derivative. -/
def square : Rule Context
  | u :: _, x => .derivative u x none fun du => .done (.bin .mul (.bin .mul .two u) du)
  | [], _ => .missing

def difference : Rule Context
  | [], _ => .missing
  | u :: rest, x => .derivative u x none fun du =>
    match rest with
    | [] => .missing
    | v :: _ => .derivative v x none fun dv => .done (.bin .sub du dv)

def last : Rule Context := fun arguments x =>
  match arguments.getLast? with
  | some u => .derivative u x none .done
  | none => .missing

/-- The derivative of the last argument in a context without bindings. -/
def isolated : Rule Context := fun arguments x =>
  match arguments.getLast? with
  | some u => .derivative u x (some .empty) .done
  | none => .missing

end Rule

end Formula
