import Formula.Function.Definition

/-!
The built-in functions. Each rule applies the chain rule to the arguments itself.
-/

set_option autoImplicit false

namespace Formula

/-- The functions that are always there. -/
inductive Builtin where
  | sin
  | cos
  | exp
  | ln
  | abs
  | sign
  | max
  | heaviside
  deriving DecidableEq, Inhabited

/-- Minus one, zero or one; both zeros have sign zero, and what is no number stays so. -/
def signValue (x : Float) : Float :=
  if x.isNaN then x
  else if x > 0.0 then 1.0
  else if x < 0.0 then -1.0
  else 0.0

/-- The greater of two values; if one of them is no number, neither is the greater. -/
def maxValue (a b : Float) : Float :=
  if a.isNaN || b.isNaN then Decimal.notANumber
  else if a < b then b else a

/-- Zero below zero, one elsewhere. -/
def stepValue (x : Float) : Float := if x < 0.0 then 0.0 else 1.0

namespace Builtin

/-- Every built-in function, in the order of registration. -/
def all : List Builtin := [.sin, .cos, .exp, .ln, .abs, .sign, .max, .heaviside]

def name : Builtin → String
  | .sin => "sin"
  | .cos => "cos"
  | .exp => "exp"
  | .ln => "ln"
  | .abs => "abs"
  | .sign => "sign"
  | .max => "max"
  | .heaviside => "heaviside"

def ofName? (name : String) : Option Builtin := all.find? fun f => f.name == name

theorem ofName?_name (f : Builtin) : ofName? f.name = some f := by
  cases f <;> decide

theorem name_ne_empty (f : Builtin) : f.name ≠ "" := by
  cases f <;> decide

def argumentCount : Builtin → Nat
  | .max => 2
  | _ => 1

def unary (f : Float → Float) : Evaluator
  | x :: _ => .ok (f x)
  | [] => .error (.wordless .missingArgument)

def binary (f : Float → Float → Float) : Evaluator
  | a :: b :: _ => .ok (f a b)
  | _ => .error (.wordless .missingArgument)

def evaluator : Builtin → Evaluator
  | .sin => unary Float.sin
  | .cos => unary Float.cos
  | .exp => unary Float.exp
  | .ln => unary Float.log
  | .abs => unary Float.abs
  | .sign => unary signValue
  | .max => binary maxValue
  | .heaviside => unary stepValue

section Rules

variable {Scope : Type}

/-- A rule for one argument: the derivative from the argument and its own derivative. -/
def chain (outer : Expr → Expr → Expr) : Rule Scope
  | u :: _, x => .derivative u x none fun du => .done (outer u du)
  | [], _ => .missing

/-- Zero almost everywhere; the jump is ignored. -/
def flat : Rule Scope := fun _ _ => .done .zero

/-- One where the first of two expressions is the greater or both are equal, zero where the
second is: the difference of the greater and the first is positive exactly there. -/
def firstDominates (a b : Expr) : Expr :=
  .call "heaviside" [.neg (.bin .sub (.call "max" [a, b]) a)]

/-- The derivative of the greater of two expressions takes that of the dominating one. At a tie
it takes that of the first. -/
def selectBranch (a b da db : Expr) : Expr :=
  let first := firstDominates a b
  .bin .add (.bin .mul first da) (.bin .mul (.bin .sub .one first) db)

/-- The rule for the greater of exactly two arguments. -/
def maxRule : Rule Scope
  | [a, b], x =>
    .derivative a x none fun da => .derivative b x none fun db => .done (selectBranch a b da db)
  | _, _ => .fail (.wordless .argumentCount)

def rule : Builtin → Rule Scope
  | .sin => chain fun u du => .bin .mul (.call "cos" [u]) du
  | .cos => chain fun u du => .bin .mul (.neg (.call "sin" [u])) du
  | .exp => chain fun u du => .bin .mul (.call "exp" [u]) du
  | .ln => chain fun u du => .bin .div du u
  | .abs => chain fun u du => .bin .mul (.call "sign" [u]) du
  | .max => maxRule
  | .sign | .heaviside => flat

def definition (f : Builtin) : Definition Scope :=
  ⟨f.name, .exactly f.argumentCount, f.evaluator, some f.rule, f.name_ne_empty⟩

end Rules

end Builtin

end Formula
