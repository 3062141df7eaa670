import Formula.Expr.Evaluation
import Formula.Expr.Render
import Formula.Log

/-!
Constant folding. An operation on constants is replaced by its value, and so is a call of a
built-in function on as many constants as it takes. What strict arithmetic refuses stays as it is,
and so does a call whose value is no number though all its arguments are.
-/

set_option autoImplicit false

namespace Formula.Expr

/-- What folding makes of an operation or a call. -/
inductive Folding where
  /-- There is nothing to fold. -/
  | none
  /-- The value takes the place. -/
  | value (v : Float)
  /-- Strict arithmetic has no value. -/
  | refused (failure : Failure)
  /-- The arguments lie outside the domain of the function. -/
  | outsideDomain

def foldBinary (strict : Bool) (op : BinaryOp) (left right : Expr) : Folding :=
  match left, right with
  | .const a, .const b =>
    match op.value strict a b with
    | .ok v => .value v
    | .error failure => .refused failure
  | _, _ => .none

def foldValues (strict : Bool) (name : String) (values : List Float) : Folding :=
  match Builtin.ofName? name with
  | none => .none
  | some f =>
    if f.argumentCount = values.length then
      match (Expr.call name (values.map .const)).evaluate strict .empty with
      | .error failure => .refused failure
      | .ok v =>
        if v.isNaN && !values.any Float.isNaN then .outsideDomain else .value v
    else .none

def foldCall (strict : Bool) (name : String) (arguments : List Expr) : Folding :=
  match constants? arguments with
  | none => .none
  | some values => foldValues strict name values

/-- Numbers in parentheses with commas between them; a single one has a comma behind it. -/
def numbersText (values : List Float) : String :=
  match values with
  | [v] => "(" ++ Decimal.plainText v ++ ",)"
  | _ => "(" ++ ", ".intercalate (values.map Decimal.plainText) ++ ")"

def failureText (failure : Failure) : String := failure.message?.getD ""

/-- The records of a folding of something with a text. -/
def Folding.records (level : Level) (text : String) : Folding → List Record
  | .none | .value _ => []
  | .refused failure =>
    level.warning ("Fold of " ++ text ++ " left unevaluated: " ++ failureText failure)
  | .outsideDomain => level.debug ("Fold of " ++ text ++ " abandoned: outside domain")

/-- A call as a record of its folding names it. -/
def foldedCallText (name : String) (arguments : List Expr) : String :=
  name ++ numbersText ((constants? arguments).getD [])

end Formula.Expr
