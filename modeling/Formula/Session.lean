import Formula.Expr.Equality
import Formula.Source
import Formula.Store

/-!
Sessions: a row of steps over named expressions, contexts and registries. The names of contexts and
registries stand for objects in a store, and several names may stand for one object. Whatever a step
has done by the time it fails stays done.
-/

set_option autoImplicit false

namespace Formula

/-- The engine, the store, and what the slots hold: expressions, and ids of objects. -/
structure Session where
  engine : Engine := {}
  expressions : Table Expr := {}
  contexts : Table Nat := {}
  registries : Table Nat := {}
  store : Store := .initial

namespace Session

/-- The context that a step runs in. -/
inductive Scope where
  | none
  | slot (name : String)
  | bindings (b : Bindings)

/-- How a registry is made. -/
inductive RegistryKind where
  | offering (offers : List Offer)
  | fresh
  | builtin

/-- The calls that write a record. -/
inductive LogCall where
  | info (required : Level)
  | warning
  | detail
  | debug

inductive Step where
  | parse (into : String) (text : Field String)
  | build (into : String) (source : Source)
  /-- Something that is no expression is put into a slot for expressions. -/
  | buildOther
  | evaluate (slot : String) (scope : Scope)
  | differentiate (slot x : String) (scope : Scope) (into : String)
  | simplify (slot into : String)
  | inspect (slot : String)
  | compare (a b : String)
  | newContext (slot : String) (bindings : Bindings) (withBuiltins : Bool)
  | emptyContext (slot : String)
  | childContext (slot into : String)
  /-- A context is made from the tables of another one. -/
  | rebuildContext (slot into : String)
  /-- Another slot is to hold the same context. -/
  | shareContext (slot into : String)
  | setVariable (slot name : String) (value : Number)
  | define (slot : String) (fields : Definition.Fields Context)
  | installBuiltins (slot : String)
  | showContext (slot : String)
  | lookUpVariable (slot name : String)
  | findFunction (slot name : String)
  | resolveFunction (slot name : String)
  | newRegistry (slot : String) (kind : RegistryKind)
  | showRegistry (slot : String)
  /-- Another slot is to hold the same registry. -/
  | shareRegistry (slot into : String)
  | register (slot : String) (offer : Offer)
  | getFunction (slot name : String)
  | freeze (slot : String)
  | installRegistry (slot context : String)
  | showSettings
  | putSettings (changes : Settings.Changes)
  /-- Something that is no settings is put in force. -/
  | putOther
  | resetSettings
  | override (changes : Settings.Changes)
  | restore
  | configureLogger (level : Level)
  | setLevel (level : Level)
  | log (call : LogCall) (text : String)

inductive Answer where
  | nothing
  | text (s : String)
  | number (value : Float)
  | flag (b : Bool)
  | simplified (text : String) (changed : Bool)
  | inspected (e : Expr)
  | function (f : Option Function)
  | registry (r : Registry)
  | settings (s : Settings)
  | logger (level : Level)
  | level (level : Level)

abbrev Action := Stateful Session

def held {α : Type} (slots : Session → Table α) (slot : String) : Action α := do
  match (slots (← get)).get? slot with
  | some value => return value
  | none => throw (.wordless .emptySlot)

section

open Stateful

variable {α : Type} {slots : Session → Table α} {slot : String} {s : Session}

theorem outcome_held {a : α} (found : (slots s).get? slot = some a) :
    (held slots slot).outcome s = pure (.ok a, s) := by
  rw [held, outcome_bind_of_ok (outcome_get s), found]
  rfl

theorem outcome_held_none (absent : (slots s).get? slot = none) :
    (held slots slot).outcome s = pure (.error (.wordless .emptySlot), s) := by
  rw [held, outcome_bind_of_ok (outcome_get s), absent]
  rfl

end

/-- Run a computation on the engine, which stays as it is. -/
def consult {α : Type} (use : Engine → Logged (Fallible α)) : Action α := do
  .ofLogged (use (← get).engine)

/-- Run an operation on the store. What it writes to the log depends on the level in force. -/
def onStore {α : Type} (operation : Level → Store.Operation α) : Action α :=
  ExceptT.mk fun s =>
    ((operation s.engine.level).outcome s.store).mapValue fun (result, store) =>
      (result, { s with store })

/-! ### Slots -/

def putExpression (slot : String) (e : Expr) : Action Unit :=
  modify fun s => { s with expressions := s.expressions.insert slot e }

def nameContext (slot : String) (id : Nat) : Action Unit :=
  modify fun s => { s with contexts := s.contexts.insert slot id }

def nameRegistry (slot : String) (id : Nat) : Action Unit :=
  modify fun s => { s with registries := s.registries.insert slot id }

def describeContext (id : Nat) : Action Answer := do
  let c ← onStore fun _ => Store.context id
  return .text c.describe

def answerContext (slot : String) (id : Nat) : Action Answer := do
  nameContext slot id
  describeContext id

def describeRegistry (id : Nat) : Action Answer := do
  let r ← onStore fun _ => Store.registry id
  return .registry r

def answerRegistry (slot : String) (id : Nat) : Action Answer := do
  nameRegistry slot id
  describeRegistry id

/-! ### Steps on expressions -/

/-- What the context of a step holds, if it has one. -/
def scopeContext : Scope → Action (Option Context)
  | .none => return none
  | .slot name => do
    let id ← held contexts name
    let c ← onStore fun _ => Store.context id
    return some c
  | .bindings b => do
    let c ← .ofFallible b.context
    return some c

def readInto (into : String) (source : Source) : Action Answer := do
  let e ← consult source.read
  putExpression into e
  return .text e.render

def evaluateIn (slot : String) (scope : Scope) : Action Answer := do
  let e ← held expressions slot
  let c ← scopeContext scope
  let value ← consult fun engine => .ofFallible (engine.evaluate c e)
  return .number value

def differentiateInto (slot x : String) (scope : Scope) (into : String) : Action Answer := do
  let e ← held expressions slot
  let c ← scopeContext scope
  let derived ← .ofFallible (e.differentiate x c)
  putExpression into derived
  return .text derived.render

def simplifyInto (slot into : String) : Action Answer := do
  let e ← held expressions slot
  let (tree, changed) ← consult fun engine =>
    let simplified := engine.simplify e
    ⟨.ok (simplified.tree, simplified.changed), simplified.records⟩
  putExpression into tree
  return .simplified tree.render changed

/-! ### Steps on contexts and registries -/

def makeContext (bindings : Bindings) (withBuiltins : Bool) : Action Nat := do
  let c ← .ofFallible bindings.context
  let id ← onStore fun _ => Store.construct c
  if withBuiltins then onStore fun _ => Store.install Store.builtinRegistry id
  return id

/-- Write to the context of a slot, and answer with its text. -/
def changeContext (slot : String) (change : Nat → Action Unit) : Action Answer := do
  let id ← held contexts slot
  change id
  describeContext id

def defineIn (fields : Definition.Fields Context) (id : Nat) : Action Unit := do
  let f ← .ofFallible (Definition.ofFields fields)
  onStore fun _ => Store.define id f

def registerIn (offer : Offer) (id : Nat) : Action Function := do
  let f ← .ofFallible offer.function
  onStore fun level => Store.register level id f

def makeRegistry : RegistryKind → Action Nat
  | .offering offers => do
    let functions ← .ofFallible (Offer.functions offers)
    onStore fun level => Store.newRegistry level functions
  | .fresh => onStore fun level => Store.newRegistry level (Registry.stock.map some)
  | .builtin => return Store.builtinRegistry

/-! ### Steps on the engine -/

def putEngine (change : Engine → Fallible (Logged Engine)) : Action Unit := do
  let engine ← consult fun engine => .ofAttempt (change engine)
  modify fun s => { s with engine }

def settings : Action Settings := do return (← get).engine.settings

def LogCall.records (level : Level) (text : String) : LogCall → List Record
  | .info required => level.info required text
  | .warning => level.warning text
  | .detail => level.detail text
  | .debug => level.debug text

def perform : Step → Action Answer
  | .parse into text => readInto into (.parsed text none)
  | .build into source => readInto into source
  | .buildOther => throw (.wrongType .root)
  | .evaluate slot scope => evaluateIn slot scope
  | .differentiate slot x scope into => differentiateInto slot x scope into
  | .simplify slot into => simplifyInto slot into
  | .inspect slot => do
    let e ← held expressions slot
    return .inspected e
  | .compare a b => do
    let e ← held expressions a
    let f ← held expressions b
    return .flag (e.same f)
  | .newContext slot bindings withBuiltins => do
    let id ← makeContext bindings withBuiltins
    answerContext slot id
  | .emptyContext slot => answerContext slot Store.emptyContext
  | .childContext slot into => do
    let id ← held contexts slot
    let new ← onStore fun _ => Store.child id
    answerContext into new
  | .rebuildContext slot into => do
    let id ← held contexts slot
    let new ← onStore fun _ => Store.rebuild id
    answerContext into new
  | .shareContext slot into => do
    let id ← held contexts slot
    answerContext into id
  | .setVariable slot name number =>
    changeContext slot fun id => onStore fun _ => Store.setVariable id name number
  | .define slot fields => changeContext slot (defineIn fields)
  | .installBuiltins slot =>
    changeContext slot fun id => onStore fun _ => Store.install Store.builtinRegistry id
  | .showContext slot => do
    let id ← held contexts slot
    describeContext id
  | .lookUpVariable slot name => do
    let id ← held contexts slot
    let value ← onStore fun _ => Store.variableValue id name
    return .number value
  | .findFunction slot name => do
    let id ← held contexts slot
    let f ← onStore fun _ => Store.findFunction id name
    return .function f
  | .resolveFunction slot name => do
    let id ← held contexts slot
    let f ← onStore fun _ => Store.resolve id name
    return .function (some f)
  | .newRegistry slot kind => do
    let id ← makeRegistry kind
    answerRegistry slot id
  | .shareRegistry slot into => do
    let id ← held registries slot
    answerRegistry into id
  | .showRegistry slot => do
    let id ← held registries slot
    describeRegistry id
  | .register slot offer => do
    let id ← held registries slot
    let f ← registerIn offer id
    return .function (some f)
  | .getFunction slot name => do
    let id ← held registries slot
    let r ← onStore fun _ => Store.registry id
    return .function (r.functions.get? name)
  | .freeze slot => do
    let id ← held registries slot
    onStore fun _ => Store.freeze id
    return .flag true
  | .installRegistry slot context => do
    let registry ← held registries slot
    changeContext context fun id => onStore fun _ => Store.install registry id
  | .showSettings => do return .settings (← settings)
  | .putSettings changes => do
    let before ← settings
    putEngine (·.configure changes)
    return .settings before
  | .putOther => throw (.wrongType .settings)
  | .resetSettings => do
    putEngine fun engine => .ok engine.reset
    return .settings (← settings)
  | .override changes => do
    putEngine (·.override changes)
    return .settings (← settings)
  | .restore => do
    putEngine (·.restore)
    return .settings (← settings)
  | .configureLogger level => do
    modify fun s => { s with engine := s.engine.setLevel level }
    return .logger level
  | .setLevel level => do
    modify fun s => { s with engine := s.engine.setLevel level }
    return .level level
  | .log call text => do
    consult fun engine => ⟨.ok (), call.records engine.level text⟩
    return .nothing

/-- The session after a step, the answer, and the records written. -/
structure Outcome where
  session : Session
  answer : Fallible Answer
  records : List Record

def step (s : Session) (action : Step) : Outcome :=
  let done := (perform action).outcome s
  ⟨done.value.2, done.value.1, done.records⟩

def run : Session → List Step → List Outcome
  | _, [] => []
  | s, action :: rest => s.step action :: run (s.step action).session rest

end Session

end Formula
