import Formula.Context

/-!
Symbolic derivatives. Operations have fixed rules, calls are derived by the rule of their function,
and results are not simplified.

A rule may ask for further derivatives. Functions are looked up in the context that is in force: a
request that brings a context puts it in force until the request is answered, and then the one
before it is in force again, whether the answer was a derivative or a failure.

What a context is, is left open until the end: something in which names have rules. So rules may
ask in contexts that are not there yet when they are made, their own among them.
-/

set_option autoImplicit false

namespace Formula

/-- Scopes: the one that holds where none was given, and the rules that names have in each. -/
class Scopes (Scope : Type) where
  outermost : Scope
  rule? : Scope → String → Option (Rule Scope)

instance : Scopes Context where
  outermost := .empty
  rule? c name := (c.findFunction name).bind Definition.rule

/-- A computation under a scope in force, which it may change. -/
abbrev Derivation (Scope α : Type) := ExceptT Failure (StateM (Option Scope)) α

namespace Derivation

variable {Scope α : Type}

/-- The answer of a computation and the scope in force afterwards. -/
def runWith (d : Derivation Scope α) (inForce : Option Scope) : Fallible α × Option Scope :=
  (d.run).run inForce

def ofAnswer (f : Option Scope → Fallible α × Option Scope) : Derivation Scope α :=
  ExceptT.mk fun inForce => f inForce

def fail (failure : Failure) : Derivation Scope α :=
  ofAnswer fun inForce => (.error failure, inForce)

/-- The scope in force; the outermost one if there is none. -/
def scope [Scopes Scope] : Derivation Scope Scope :=
  ofAnswer fun inForce => (.ok (inForce.getD Scopes.outermost), inForce)

/-- Run a computation under a scope of its own, if there is one, and put the scope before it in
force again. -/
def within (scope : Option Scope) (d : Derivation Scope α) : Derivation Scope α :=
  match scope with
  | none => d
  | some c => ofAnswer fun inForce => ((d.runWith (some c)).1, inForce)

/-- Turn the answer of a computation, be it a failure, into a value. -/
def attempt (d : Derivation Scope α) : Derivation Scope (Fallible α) :=
  ofAnswer fun inForce => (.ok (d.runWith inForce).1, (d.runWith inForce).2)

end Derivation

/-- Follow a recipe, given how to answer its requests. -/
def Recipe.follow {Scope : Type} (answer : Option Scope → Expr → String → Derivation Scope Expr) :
    Recipe Scope → Derivation Scope Expr
  | .done result => pure result
  | .fail failure => Derivation.fail failure
  | .derive e name scope next => do
    let derived ← (answer scope e name).attempt
    (next derived).follow answer

/-- The derivative of an operation from its operands and their derivatives. The rule for powers
holds for positive bases. -/
def BinaryOp.derivative (op : BinaryOp) (u v du dv : Expr) : Expr :=
  match op with
  | .add => .bin .add du dv
  | .sub => .bin .sub du dv
  | .mul => .bin .add (.bin .mul du v) (.bin .mul u dv)
  | .div => .bin .div (.bin .sub (.bin .mul du v) (.bin .mul u dv)) (.bin .pow v .two)
  | .pow => .bin .mul (.bin .pow u v)
      (.bin .add (.bin .mul dv (.call "ln" [u])) (.bin .mul v (.bin .div du u)))

namespace Expr

section

variable {Scope : Type}

/-- The derivative of an expression, given those of calls. -/
def deriveWith (call : String → List Expr → Derivation Scope Expr) (x : String) :
    Expr → Derivation Scope Expr
  | .const _ => pure .zero
  | .var name => pure (if name = x then .one else .zero)
  | .bin op u v => do
    let du ← deriveWith call x u
    let dv ← deriveWith call x v
    return op.derivative u v du dv
  | .neg u => do
    let du ← deriveWith call x u
    return .neg du
  | .call name arguments => call name arguments

variable [Scopes Scope]

/-- The rule of a function under the scope in force. -/
def ruleOf (name : String) : Derivation Scope (Rule Scope) := do
  let c ← Derivation.scope
  match Scopes.rule? c name with
  | some rule => pure rule
  | none => Derivation.fail (.undifferentiable name)

/-- The derivative of an expression, with rules nested to a limit. -/
def derive : Nat → String → Expr → Derivation Scope Expr
  | 0, x => deriveWith (fun _ _ => Derivation.fail (.wordless .rulesTooDeep)) x
  | limit + 1, x =>
    deriveWith (fun name arguments => do
      let rule ← ruleOf name
      (rule arguments x).follow fun scope e y => Derivation.within scope (derive limit y e)) x

/-- The derivative of an expression under a scope of its own, if one is given. -/
def deriveIn (limit : Nat) (scope : Option Scope) (x : String) (e : Expr) : Derivation Scope Expr :=
  Derivation.within scope (derive limit x e)

end

/-- How deep rules may nest. Rules that only ask for derivatives of their arguments never nest
deeper than the expression; other rules have a thousand more. -/
def ruleLimit (e : Expr) : Nat := e.size + 1000

def differentiate (e : Expr) (x : String) (scope : Option Context) : Fallible Expr :=
  ((deriveIn e.ruleLimit scope x e).runWith none).1

end Expr

end Formula
