import Formula.Arithmetic
import Formula.Context

/-!
The value of an expression in a context. Parts are evaluated from left to right, and the first
failure is the failure of the whole.
-/

set_option autoImplicit false

namespace Formula

def Arity.check (arity : Arity) (name : String) (actual : Nat) : Fallible Unit :=
  match arity with
  | .variadic => .ok ()
  | .exactly count => if count = actual then .ok () else .error (.arityMismatch name count actual)

namespace Expr

mutual

/-- The value of an expression in plain or in strict arithmetic. The function of a call is looked
up before its arguments are evaluated. -/
def evaluate (strict : Bool) (c : Context) : Expr → Fallible Float
  | .const value => .ok value
  | .var name => c.variableValue name
  | .bin op left right => do
    let a ← evaluate strict c left
    let b ← evaluate strict c right
    op.value strict a b
  | .neg operand => do
    let a ← evaluate strict c operand
    return -a
  | .call name arguments => do
    let f ← c.resolve name
    f.arity.check name arguments.length
    let values ← evaluateAll strict c arguments
    let result ← f.apply values
    checkOverflow strict (.function name) values result

def evaluateAll (strict : Bool) (c : Context) : List Expr → Fallible (List Float)
  | [] => .ok []
  | e :: rest => do
    let value ← evaluate strict c e
    let values ← evaluateAll strict c rest
    return value :: values

end

end Expr

end Formula
