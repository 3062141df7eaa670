import Formula.Expr.Blueprint
import Formula.Registry
import Formula.Stateful

/-!
The store: the contexts and registries that were made, as objects that are known by their ids, and
the tables that they refer to. Whoever has the id of an object sees every write to it. The context
without bindings and the registry of the built-in functions are in the store from the start.
-/

set_option autoImplicit false

namespace Formula

/-- How an object refers to a table: where it is, and whether it may be written to. -/
structure Reference where
  place : Nat
  isReadOnly : Bool := false

structure ContextObject where
  values : Reference
  functions : Reference

structure RegistryObject where
  functions : Nat
  isFrozen : Bool := false

/-- Tables and objects by their numbers. Nothing is ever taken away. -/
structure Store where
  values : Array (Table Float)
  functions : Array (Table Function)
  contexts : Array ContextObject
  registries : Array RegistryObject

namespace Store

/-- The context that is used where none is given. It can only be read. -/
def emptyContext : Nat := 0

def builtinRegistry : Nat := 0

def initial : Store where
  values := #[.empty]
  functions := #[.empty, Registry.builtin.functions]
  contexts := #[⟨⟨0, true⟩, ⟨0, true⟩⟩]
  registries := #[⟨1, true⟩]

instance : Inhabited Store := ⟨initial⟩

/-- What a context holds. -/
def contextAt? (s : Store) (id : Nat) : Option Context := do
  let object ← s.contexts[id]?
  let values ← s.values[object.values.place]?
  let functions ← s.functions[object.functions.place]?
  return ⟨values, functions⟩

/-- What a registry has. -/
def registryAt? (s : Store) (id : Nat) : Option Registry := do
  let object ← s.registries[id]?
  let functions ← s.functions[object.functions]?
  return ⟨functions, object.isFrozen⟩

/-! ### Changes -/

def pushValues (s : Store) (t : Table Float) : Store := { s with values := s.values.push t }

def pushFunctions (s : Store) (t : Table Function) : Store :=
  { s with functions := s.functions.push t }

def pushContext (s : Store) (object : ContextObject) : Store :=
  { s with contexts := s.contexts.push object }

def pushRegistry (s : Store) (object : RegistryObject) : Store :=
  { s with registries := s.registries.push object }

def changeValues (s : Store) (place : Nat) (change : Table Float → Table Float) : Store :=
  { s with values := s.values.modify place change }

def changeFunctions (s : Store) (place : Nat) (change : Table Function → Table Function) : Store :=
  { s with functions := s.functions.modify place change }

def setFrozen (s : Store) (id : Nat) : Store :=
  { s with registries := s.registries.modify id fun object => { object with isFrozen := true } }

/-! ### Tables -/

abbrev Operation := Stateful Store

/-- Look something up that must be there. -/
def ask {α : Type} (look : Store → Option α) : Operation α := do
  match look (← get) with
  | some found => return found
  | none => throw (.wordless .emptySlot)

def newValues (t : Table Float) : Operation Nat :=
  modifyGet fun s => (s.values.size, s.pushValues t)

def newFunctions (t : Table Function) : Operation Nat :=
  modifyGet fun s => (s.functions.size, s.pushFunctions t)

/-- A table of its own with the entries of another one. -/
def copyValues (place : Nat) : Operation Nat := do
  let t ← ask (·.values[place]?)
  newValues t

def copyFunctions (place : Nat) : Operation Nat := do
  let t ← ask (·.functions[place]?)
  newFunctions t

def context (id : Nat) : Operation Context := ask (·.contextAt? id)

def registry (id : Nat) : Operation Registry := ask (·.registryAt? id)

/-! ### Registries -/

/-- Offer something to a registry, which takes in functions under their names. What is no function
is refused, and so is everything once the registry is frozen: it then asks for the name first. -/
def register (level : Level) (id : Nat) (offer : Option Function) : Operation Function := do
  let object ← ask (·.registries[id]?)
  match offer with
  | none =>
    throw (if object.isFrozen then .wordless .namelessDefinition else .wrongType .definition)
  | some f =>
    if object.isFrozen then throw (.frozen f.name)
    else do
      modify (·.changeFunctions object.functions (·.insert f.name f))
      .ofLogged ⟨.ok f, level.detail f.registration⟩

def registerAll (level : Level) (id : Nat) : List (Option Function) → Operation Unit
  | [] => return
  | offer :: rest => do
    let _ ← register level id offer
    registerAll level id rest

/-- A registry of several functions. When one of them is refused, what was registered before it
stays in a registry that nobody has the id of. -/
def newRegistry (level : Level) (offers : List (Option Function)) : Operation Nat := do
  let place ← newFunctions .empty
  let id ← modifyGet fun s => (s.registries.size, s.pushRegistry ⟨place, false⟩)
  registerAll level id offers
  return id

def freeze (id : Nat) : Operation Unit := modify (·.setFrozen id)

/-! ### Contexts -/

/-- A context with copies of two tables. -/
def newContext (values functions : Nat) : Operation Nat := do
  let values ← copyValues values
  let functions ← copyFunctions functions
  modifyGet fun s =>
    (s.contexts.size, s.pushContext ⟨⟨values, false⟩, ⟨functions, false⟩⟩)

/-- A context that is made from the tables of another one themselves. -/
def rebuild (id : Nat) : Operation Nat := do
  let object ← ask (·.contexts[id]?)
  newContext object.values.place object.functions.place

/-- A context that is made from tables which nobody else has. -/
def construct (c : Context) : Operation Nat := do
  let values ← newValues c.values
  let functions ← newFunctions c.functions
  newContext values functions

/-- A snapshot of a context, made from copies of its tables. -/
def child (id : Nat) : Operation Nat := do
  let c ← context id
  construct c

def setVariable (id : Nat) (name : String) (number : Number) : Operation Unit := do
  let object ← ask (·.contexts[id]?)
  let value ← .ofFallible number.toDouble
  if object.values.isReadOnly then throw (.wordless .readOnlyBinding)
  else modify (·.changeValues object.values.place (·.insert name value))

def define (id : Nat) (f : Function) : Operation Unit := do
  let object ← ask (·.contexts[id]?)
  if object.functions.isReadOnly then throw (.wordless .readOnlyBinding)
  else modify (·.changeFunctions object.functions.place (·.insert f.name f))

def install (registry id : Nat) : Operation Unit := do
  let offered ← Store.registry registry
  let object ← ask (·.contexts[id]?)
  if object.functions.isReadOnly then throw (.wordless .readOnlyInstall)
  else modify (·.changeFunctions object.functions.place (·.insertAll offered.functions))

/-! ### Lookups -/

def variableValue (id : Nat) (name : String) : Operation Float := do
  let c ← context id
  .ofFallible (c.variableValue name)

/-- The function of a name: that of the context, else that of the built-in registry. -/
def findFunction (id : Nat) (name : String) : Operation (Option Function) := do
  let c ← context id
  match c.functions.get? name with
  | some f => return some f
  | none => return (← registry builtinRegistry).functions.get? name

def resolve (id : Nat) (name : String) : Operation Function := do
  match ← findFunction id name with
  | some f => return f
  | none => throw (.unknownFunction name)

end Store

end Formula
