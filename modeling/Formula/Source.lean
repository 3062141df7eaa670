import Formula.Expr.Blueprint
import Formula.Expr.Derivative
import Formula.Parse

/-!
Where expressions and contexts of a request come from.
-/

set_option autoImplicit false

namespace Formula

/-- An expression is built as it is described, or read from a text with or without simplifying. -/
inductive Source where
  | tree (description : Blueprint)
  | raw (text : Field String) (limit : Option Int)
  | parsed (text : Field String) (limit : Option Int)

def Logged.ofFallible {α : Type} (value : Fallible α) : Logged (Fallible α) := ⟨value, []⟩

/-- The outcome of a computation that writes nothing if it fails. -/
def Logged.ofAttempt {α : Type} : Fallible (Logged α) → Logged (Fallible α)
  | .ok x => x.mapValue .ok
  | .error failure => .ofFallible (.error failure)

def Source.read (engine : Engine) : Source → Logged (Fallible Expr)
  | .tree description => .ofFallible description.build
  | .raw text limit => .ofFallible (requireText text >>= engine.parseRaw limit)
  | .parsed text limit =>
    match requireText text with
    | .ok text => engine.parse limit text
    | .error failure => .ofFallible (.error failure)

/-- Bindings as they were written: values and functions under the names that they are bound to. A
function may be bound to a name that is not its own. -/
structure Bindings where
  values : List (String × Number) := []
  functions : List (String × Definition.Fields Context) := []

namespace Bindings

/-- What is bound to each name, once it has been checked. -/
def checked {α β : Type} (check : α → Fallible β) :
    List (String × α) → Fallible (List (String × β))
  | [] => .ok []
  | (name, raw) :: rest => do
    let value ← check raw
    let entries ← checked check rest
    return (name, value) :: entries

def context (b : Bindings) : Fallible Context := do
  let values ← checked Number.toDouble b.values
  let functions ← checked Definition.ofFields b.functions
  return ⟨.ofList values, .ofList functions⟩

end Bindings

/-- What may be offered to a registry: the parts of a definition, or something that is none. -/
inductive Offer where
  | definition (fields : Definition.Fields Context)
  | other

namespace Offer

def function : Offer → Fallible (Option Function)
  | .definition fields => some <$> Definition.ofFields fields
  | .other => .ok none

/-- Definitions are made before the first one is offered. -/
def functions : List Offer → Fallible (List (Option Function))
  | [] => .ok []
  | offer :: rest => do
    let f ← offer.function
    let fs ← functions rest
    return f :: fs

end Offer

end Formula
