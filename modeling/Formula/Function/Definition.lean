import Formula.Expr.Basic
import Formula.Failure
import Formula.Field

/-!
Functions: a name, the number of arguments, the numeric value, and a rule for the derivative. A
rule is written as a recipe, which may ask for derivatives of other expressions on the way to its
own; the type of scopes in which it may ask is left open here.
-/

set_option autoImplicit false

namespace Formula

/-- The number of arguments that a function takes. -/
inductive Arity where
  | variadic
  | exactly (count : Nat)
  deriving DecidableEq, Inhabited

namespace Arity

/-- The number of arguments, minus one for any. -/
def toInt : Arity → Int
  | .variadic => -1
  | .exactly count => count

def ofInt? (n : Int) : Option Arity :=
  if n = -1 then some .variadic
  else if n < 0 then none
  else some (.exactly n.toNat)

def accepts : Arity → Nat → Bool
  | .variadic, _ => true
  | .exactly count, actual => count == actual

end Arity

/-- The value of a function at the values of its arguments. -/
abbrev Evaluator := List Float → Fallible Float

/-- A derivation in progress. It ends in an expression or in a failure, or asks for the derivative
of an expression with respect to a variable, in a scope of its own or in the one it runs in, and
goes on with the answer, be it a failure. -/
inductive Recipe (Scope : Type) where
  | done (result : Expr)
  | fail (failure : Failure)
  | derive (e : Expr) (name : String) (scope : Option Scope)
      (next : Fallible Expr → Recipe Scope)

/-- The recipe for the derivative of a call, from its arguments and the variable. -/
abbrev Rule (Scope : Type) := List Expr → String → Recipe Scope

namespace Recipe

variable {Scope : Type}

/-- Ask for a derivative and give up if there is none. -/
def derivative (e : Expr) (name : String) (scope : Option Scope) (next : Expr → Recipe Scope) :
    Recipe Scope :=
  .derive e name scope fun
    | .ok derived => next derived
    | .error failure => .fail failure

/-- Read an argument that is not there. -/
def missing : Recipe Scope := .fail (.wordless .missingArgument)

end Recipe

/-- A named function. -/
structure Definition (Scope : Type) where
  name : String
  arity : Arity
  evaluator : Evaluator
  rule : Option (List Expr → String → Recipe Scope)
  name_ne_empty : name ≠ ""

namespace Definition

variable {Scope : Type}

def isVariadic (d : Definition Scope) : Bool := d.arity == .variadic

def isDifferentiable (d : Definition Scope) : Bool := d.rule.isSome

/-- The value at some arguments, whatever their number. -/
def apply (d : Definition Scope) (values : List Float) : Fallible Float := d.evaluator values

/-- The parts of a definition before they are checked. -/
structure Fields (Scope : Type) where
  name : Field String
  arity : Field Int
  evaluator : Field Evaluator
  rule : Field (Rule Scope)

/-- A rule may be left out. -/
def checkRule : Field (Rule Scope) → Fallible (Option (Rule Scope))
  | .absent => .ok none
  | .unusable => .error (.wrongType .derivative)
  | .given rule => .ok (some rule)

def checkEvaluator : Field Evaluator → Fallible Evaluator
  | .given evaluator => .ok evaluator
  | _ => .error (.wrongType .evaluator)

def checkArity : Field Int → Fallible Arity
  | .given n =>
    match Arity.ofInt? n with
    | some arity => .ok arity
    | none => .error (.wrongValue .arity)
  | _ => .error (.wrongType .arity)

def checkName : Field String → Fallible { name : String // name ≠ "" }
  | .given name => if h : name = "" then .error (.wrongType .functionName) else .ok ⟨name, h⟩
  | _ => .error (.wrongType .functionName)

/-- A definition from its parts. They are checked in their order, and the first fault counts. -/
def ofFields (fields : Fields Scope) : Fallible (Definition Scope) := do
  let name ← checkName fields.name
  let arity ← checkArity fields.arity
  let evaluator ← checkEvaluator fields.evaluator
  let rule ← checkRule fields.rule
  return ⟨name.val, arity, evaluator, rule, name.property⟩

def registration (d : Definition Scope) : String :=
  "Registered function " ++ d.name ++ "/" ++ toString d.arity.toInt

end Definition

end Formula
