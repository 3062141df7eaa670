import Formula.Proofs.Store.Operations
import Formula.Session

/-!
What can come of a step. A step that succeeds is one of the transitions below; a step that fails leaves
every slot and every object as it was. Which of the two it is depends on what the step is given, on
whether the contexts that it writes to can be written to, and on whether registries are frozen.
-/

set_option autoImplicit false

namespace Formula.Session

open Stateful
open Store (emptyContext builtinRegistry)

/-! ### Runs -/

def after (s : Session) (steps : List Step) : Session :=
  steps.foldl (fun s action => (s.step action).session) s

theorem after_append (s : Session) (steps more : List Step) :
    s.after (steps ++ more) = (s.after steps).after more := List.foldl_append

theorem run_append (s : Session) (steps more : List Step) :
    s.run (steps ++ more) = s.run steps ++ (s.after steps).run more := by
  induction steps generalizing s with
  | nil => rfl
  | cons action rest ih =>
      rw [List.cons_append, run, run, ih, List.cons_append]
      rfl

/-! ### What is expected -/

/-- What a step can see of the objects that slots name: whether a slot names a context, and whether that
one can be written to; whether a slot names a registry, and whether that one is open. -/
structure Sight where
  writable? : String → Option Bool
  open? : String → Option Bool

/-- The function that is offered, if it is one and can be made. -/
def function? (offer : Offer) : Option Function := offer.function.toOption.join

/-- Whether a step succeeds that makes, writes to, or names a context or a registry. -/
def succeeds? (sight : Sight) : Step → Option Bool
  | .newContext _ bindings _ => some bindings.context.isOk
  | .emptyContext _ => some true
  | .childContext slot _ | .rebuildContext slot _ | .shareContext slot _ =>
    some (sight.writable? slot).isSome
  | .setVariable slot _ number => some (number.toDouble.isOk && sight.writable? slot == some true)
  | .define slot fields =>
    some ((Definition.ofFields fields).isOk && sight.writable? slot == some true)
  | .installBuiltins slot => some (sight.writable? slot == some true)
  | .installRegistry registry slot =>
    some ((sight.open? registry).isSome && sight.writable? slot == some true)
  | .newRegistry _ (.offering offers) => some (offers.all fun offer => (function? offer).isSome)
  | .newRegistry _ _ => some true
  | .shareRegistry slot _ | .freeze slot => some (sight.open? slot).isSome
  | .register slot offer => some (sight.open? slot == some true && (function? offer).isSome)
  | _ => none

def sight (s : Session) : Sight where
  writable? slot := (s.contexts.get? slot).map fun id => decide (id ≠ emptyContext)
  open? slot := ((s.registries.get? slot).bind s.store.registryAt?).map fun r => !r.isFrozen

/-! ### Transitions -/

/-- The names stand for objects, and the store is sound. -/
structure Ready (s : Session) : Prop where
  sound : s.store.Sound
  contexts : ∀ {slot id}, s.contexts.get? slot = some id → ∃ c, s.store.contextAt? id = some c
  registries : ∀ {slot id}, s.registries.get? slot = some id → ∃ r, s.store.registryAt? id = some r

/-- Names stand for the same objects, and objects that were there hold the same. -/
structure Spares (s t : Session) : Prop where
  contexts : t.contexts = s.contexts
  registries : t.registries = s.registries
  sound : t.store.Sound
  store : s.store.Keeps t.store

theorem Ready.spares {s : Session} (ready : s.Ready) : s.Spares s :=
  ⟨rfl, rfl, ready.sound, .refl _⟩

def RegistryKind.Offers (functions : List Function) : RegistryKind → Prop
  | .offering offers => Offer.functions offers = .ok (functions.map some)
  | .fresh => functions = Registry.stock
  | .builtin => False

/-- What the step copies into a new context. -/
inductive Copies (from_ into : String) : Step → Prop
  | child : Copies from_ into (.childContext from_ into)
  | rebuild : Copies from_ into (.rebuildContext from_ into)

/-- A step that has to do with neither contexts nor registries, or looks at them only. -/
def Step.looks : Step → Bool
  | .newContext .. | .emptyContext _ | .childContext .. | .rebuildContext .. | .shareContext ..
  | .setVariable .. | .define .. | .installBuiltins _ | .installRegistry .. | .newRegistry ..
  | .shareRegistry .. | .register .. | .freeze _ => false
  | _ => true

/-- What a step that succeeds does to contexts and registries. -/
inductive Transition (s : Session) : Step → Session → Prop
  | looks {action : Step} {t : Session} (looks : action.looks = true) (spares : s.Spares t) :
      Transition s action t
  | newContext {bindings : Bindings} {withBuiltins : Bool} {c : Context} {id : Nat} {u : Store}
      (slot : String) (made : bindings.context = .ok c) (absent : s.store.contextAt? id = none)
      (sound : u.Sound)
      (puts : s.store.PutsContext u id
        (if withBuiltins then ⟨c.values, c.functions.insertAll Registry.builtin.functions⟩ else c)) :
      Transition s (.newContext slot bindings withBuiltins)
        { s with store := u, contexts := s.contexts.insert slot id }
  | copies {action : Step} {parent slot : String} {other id : Nat} {c : Context} {u : Store}
      (copies : Copies parent slot action) (named : s.contexts.get? parent = some other)
      (held : s.store.contextAt? other = some c) (absent : s.store.contextAt? id = none)
      (sound : u.Sound) (puts : s.store.PutsContext u id c) :
      Transition s action { s with store := u, contexts := s.contexts.insert slot id }
  | emptyContext (slot : String) :
      Transition s (.emptyContext slot) { s with contexts := s.contexts.insert slot emptyContext }
  | shareContext {other : String} {id : Nat} (slot : String) (named : s.contexts.get? other = some id) :
      Transition s (.shareContext other slot) { s with contexts := s.contexts.insert slot id }
  | setVariable {slot name : String} {number : Number} {v : Float} {id : Nat} {c : Context} {u : Store}
      (named : s.contexts.get? slot = some id) (held : s.store.contextAt? id = some c)
      (value : number.toDouble = .ok v) (sound : u.Sound)
      (puts : s.store.PutsContext u id ⟨c.values.insert name v, c.functions⟩) :
      Transition s (.setVariable slot name number) { s with store := u }
  | define {slot : String} {fields : Definition.Fields Context} {f : Function} {id : Nat} {c : Context}
      {u : Store} (named : s.contexts.get? slot = some id) (held : s.store.contextAt? id = some c)
      (defined : Definition.ofFields fields = .ok f) (sound : u.Sound)
      (puts : s.store.PutsContext u id ⟨c.values, c.functions.insert f.name f⟩) :
      Transition s (.define slot fields) { s with store := u }
  | installBuiltins {slot : String} {id : Nat} {c : Context} {u : Store}
      (named : s.contexts.get? slot = some id) (held : s.store.contextAt? id = some c)
      (sound : u.Sound)
      (puts : s.store.PutsContext u id
        ⟨c.values, c.functions.insertAll Registry.builtin.functions⟩) :
      Transition s (.installBuiltins slot) { s with store := u }
  | installRegistry {registry slot : String} {other id : Nat} {r : Registry} {c : Context} {u : Store}
      (named : s.contexts.get? slot = some id) (held : s.store.contextAt? id = some c)
      (registered : s.registries.get? registry = some other)
      (has : s.store.registryAt? other = some r) (sound : u.Sound)
      (puts : s.store.PutsContext u id ⟨c.values, c.functions.insertAll r.functions⟩) :
      Transition s (.installRegistry registry slot) { s with store := u }
  | newRegistry {kind : RegistryKind} {functions : List Function} {id : Nat} {u : Store}
      (slot : String) (offers : kind.Offers functions) (absent : s.store.registryAt? id = none)
      (sound : u.Sound)
      (puts : s.store.PutsRegistry u id ⟨.ofList (functions.map fun f => (f.name, f)), false⟩) :
      Transition s (.newRegistry slot kind)
        { s with store := u, registries := s.registries.insert slot id }
  | builtinRegistry (slot : String) :
      Transition s (.newRegistry slot .builtin)
        { s with registries := s.registries.insert slot builtinRegistry }
  | shareRegistry {other : String} {id : Nat} (slot : String)
      (named : s.registries.get? other = some id) :
      Transition s (.shareRegistry other slot) { s with registries := s.registries.insert slot id }
  | register {slot : String} {offer : Offer} {f : Function} {id : Nat} {r : Registry} {u : Store}
      (named : s.registries.get? slot = some id) (has : s.store.registryAt? id = some r)
      (isOpen : r.isFrozen = false) (offered : offer.function = .ok (some f)) (sound : u.Sound)
      (puts : s.store.PutsRegistry u id ⟨r.functions.insert f.name f, r.isFrozen⟩) :
      Transition s (.register slot offer) { s with store := u }
  | freeze {slot : String} {id : Nat} {r : Registry} {u : Store}
      (named : s.registries.get? slot = some id) (has : s.store.registryAt? id = some r)
      (sound : u.Sound) (puts : s.store.PutsRegistry u id ⟨r.functions, true⟩) :
      Transition s (.freeze slot) { s with store := u }

/-- What comes of a step: it fails and spares everything, or it is a transition. Neither contradicts what
is expected. -/
inductive Comes (s : Session) (action : Step) (o : Outcome) : Prop
  | fails {failure : Failure} (answer : o.answer = .error failure) (spares : s.Spares o.session)
      (expected : succeeds? s.sight action ≠ some true)
  | does {a : Answer} (answer : o.answer = .ok a) (taken : Transition s action o.session)
      (expected : succeeds? s.sight action ≠ some false)

variable {s t : Session} {action : Step}

theorem Comes.of_error {failure : Failure}
    (failed : ((perform action).outcome s).value = (.error failure, t)) (spares : s.Spares t)
    (expected : succeeds? s.sight action ≠ some true) : Comes s action (s.step action) := by
  have answer : (s.step action).answer = .error failure := congrArg Prod.fst failed
  have session : (s.step action).session = t := congrArg Prod.snd failed
  exact .fails answer (session ▸ spares) expected

theorem Comes.of_ok {a : Answer} (done : ((perform action).outcome s).value = (.ok a, t))
    (taken : Transition s action t) (expected : succeeds? s.sight action ≠ some false) :
    Comes s action (s.step action) := by
  have answer : (s.step action).answer = .ok a := congrArg Prod.fst done
  have session : (s.step action).session = t := congrArg Prod.snd done
  exact .does answer (session ▸ taken) expected

end Formula.Session
