import Mathlib.Data.List.Induction
import Formula.Proofs.Session.Ledgers
import Formula.Proofs.Session.Steps

/-!
Lookups in histories. The objects of the store are exactly as their ledgers say at any time, so a lookup
finds the latest write to the object that its slot names, and a write to any other object is never seen.
-/

set_option autoImplicit false

namespace Formula.Session

open Stateful
open Store (emptyContext builtinRegistry)

/-! ### Agreement -/

/-- The tables of a context hold what its ledger says. -/
structure Follows (c : Context) (l : Ledger) : Prop where
  values : c.values.Holds l.values
  functions : c.functions.Holds l.functions

/-- A context of the store is as the ledger of its origin says. -/
def HasContext (u : Store) (h : List Event) (id : Nat) (o : Origin) : Prop :=
  ∃ c, u.contextAt? id = some c ∧ Follows c (ledger o h)

/-- A registry of the store is as the history of its origin says. -/
def HasRegistry (u : Store) (h : List Event) (id : Nat) (o : Origin) : Prop :=
  ∃ r, u.registryAt? id = some r ∧ r.functions.Holds (registrations o h) ∧ r.isFrozen = isFrozen o h

/-- The registries and contexts of a session are as its history says. -/
structure Agrees (s : Session) (h : List Event) : Prop where
  sound : s.store.Sound
  contexts : Matches s.contexts.get? (contextOf · h) emptyContext (HasContext s.store h)
  registries : Matches s.registries.get? (registryOf · h) builtinRegistry (HasRegistry s.store h)

section

variable {h : List Event} {action : Step} {slot : String} {id : Nat} {o : Origin}

/-- A context that is not written to is as it was. -/
theorem HasContext.kept {u v : Store}
    (keeps : ∀ {id c}, u.contextAt? id = some c → v.contextAt? id = some c)
    (none : action.written? h = none) (old : o ≠ .made h.length) (has : HasContext u h id o) :
    HasContext v (⟨action, true⟩ :: h) id o := by
  obtain ⟨c, held, follows⟩ := has
  exact ⟨c, keeps held, (ledger_kept old none).symm ▸ follows⟩

/-- A registry that is neither written to nor frozen is as it was. -/
theorem HasRegistry.kept {u v : Store}
    (keeps : ∀ {id r}, u.registryAt? id = some r → v.registryAt? id = some r)
    (unregistered : action.registered? = none) (unfrozen : action.frozen? = none)
    (old : o ≠ .made h.length) (has : HasRegistry u h id o) :
    HasRegistry v (⟨action, true⟩ :: h) id o := by
  obtain ⟨r, held, holds, frozen⟩ := has
  refine ⟨r, keeps held, ?_, ?_⟩
  · rwa [registrations_kept old unregistered]
  · rwa [isFrozen_kept unfrozen]

theorem contexts_written {slots : Table Nat} {u v : Store} {l : Ledger} {c c' : Context}
    (fits : Matches slots.get? (contextOf · h) emptyContext (HasContext u h))
    (unnamed : action.contextNaming? = none) (writes : action.written? h = some (slot, l))
    (named : slots.get? slot = some id) (held : u.contextAt? id = some c)
    (puts : u.PutsContext v id c') (follows : ∀ {m}, Follows c m → Follows c' (l.before m)) :
    Matches slots.get? (contextOf · (⟨action, true⟩ :: h)) emptyContext
      (HasContext v (⟨action, true⟩ :: h)) := by
  refine fits.written unnamed named (fun {o} origin old has => ?_)
    fun {other o} apart origin old has => ?_
  · obtain ⟨there, held', follows'⟩ := has
    cases held.symm.trans held'
    refine ⟨c', puts.put, ?_⟩
    rw [ledger_written old writes, if_pos origin]
    exact follows follows'
  · obtain ⟨there, held', follows'⟩ := has
    refine ⟨there, puts.others apart held', ?_⟩
    rwa [ledger_written old writes, if_neg origin]

theorem contexts_made {slots : Table Nat} {u v : Store} {c : Context}
    (fits : Matches slots.get? (contextOf · h) emptyContext (HasContext u h))
    (new : action.contextNaming? = some (slot, .new)) (unwritten : action.written? h = none)
    (absent : u.contextAt? id = none) (puts : u.PutsContext v id c)
    (follows : Follows c (ledger (.made h.length) (⟨action, true⟩ :: h))) :
    Matches (slots.insert slot id).get? (contextOf · (⟨action, true⟩ :: h)) emptyContext
      (HasContext v (⟨action, true⟩ :: h)) := by
  refine fits.filled_new (HasContext.kept (puts.keeps absent).contexts unwritten) new (fun has => ?_)
    ⟨c, puts.put, follows⟩
  obtain ⟨c, held, -⟩ := has
  cases absent.symm.trans held

theorem registries_written {slots : Table Nat} {u v : Store} {r r' : Registry}
    (fits : Matches slots.get? (registryOf · h) builtinRegistry (HasRegistry u h))
    (unnamed : action.registryNaming? = none) (named : slots.get? slot = some id)
    (has : u.registryAt? id = some r) (puts : u.PutsRegistry v id r')
    (this : ∀ {o}, registryOf slot h = some o → o ≠ .made h.length →
      r.functions.Holds (registrations o h) → r.isFrozen = isFrozen o h →
        r'.functions.Holds (registrations o (⟨action, true⟩ :: h)) ∧
          r'.isFrozen = isFrozen o (⟨action, true⟩ :: h))
    (others : ∀ {o}, registryOf slot h ≠ some o → o ≠ .made h.length →
      registrations o (⟨action, true⟩ :: h) = registrations o h ∧
        isFrozen o (⟨action, true⟩ :: h) = isFrozen o h) :
    Matches slots.get? (registryOf · (⟨action, true⟩ :: h)) builtinRegistry
      (HasRegistry v (⟨action, true⟩ :: h)) := by
  refine fits.written unnamed named (fun {o} origin old before => ?_)
    fun {other o} apart origin old before => ?_
  · obtain ⟨there, has', holds, frozen⟩ := before
    cases has.symm.trans has'
    exact ⟨r', puts.put, this origin old holds frozen⟩
  · obtain ⟨there, has', holds, frozen⟩ := before
    obtain ⟨registered, froze⟩ := others origin old
    exact ⟨there, puts.others apart has', registered ▸ holds, frozen.trans froze.symm⟩

end

/-! ### What new objects hold -/

theorem holds_builtins : Registry.builtin.functions.Holds builtins := Table.Holds.ofList _

theorem follows_bindings {bindings : Bindings} {c : Context} (made : bindings.context = .ok c)
    (withBuiltins : Bool) :
    Follows (if withBuiltins then ⟨c.values, c.functions.insertAll Registry.builtin.functions⟩ else c)
      (ledgerOf bindings withBuiltins) := by
  simp only [Bindings.context, bind_eq_ok, pure, Except.pure, Except.ok.injEq] at made
  obtain ⟨values, valued, functions, defined, rfl⟩ := made
  have follows : Follows ⟨.ofList values, .ofList functions⟩ ⟨values.reverse, functions.reverse⟩ :=
    ⟨.ofList values, .ofList functions⟩
  have bound : ledgerOf bindings withBuiltins =
      ⟨values.reverse, (if withBuiltins then builtins else []) ++ functions.reverse⟩ := by
    simp [ledgerOf, valued, defined, decoded, Except.toOption]
  rw [bound]
  cases withBuiltins with
  | false => exact follows
  | true => exact ⟨follows.values, follows.functions.insertAll holds_builtins⟩

theorem filterMap_of_functions {offers : List Offer} {functions : List Function}
    (made : Offer.functions offers = .ok (functions.map some)) :
    offers.filterMap function? = functions := by
  induction offers generalizing functions with
  | nil => cases functions with
    | nil => rfl
    | cons f rest => cases made
  | cons offer rest ih =>
      simp only [Offer.functions, bind_eq_ok, pure, Except.pure, Except.ok.injEq] at made
      obtain ⟨taken, offered, later, made, same⟩ := made
      cases functions with
      | nil => cases same
      | cons f fs =>
          obtain ⟨rfl, rfl⟩ := List.cons_eq_cons.1 same
          rw [List.filterMap_cons, function?_eq_some.2 offered, ih made]

theorem holds_kind {kind : RegistryKind} {functions : List Function} (offers : kind.Offers functions) :
    (Table.ofList (functions.map fun f => (f.name, f))).Holds kind.functions := by
  cases kind with
  | offering offered =>
      rw [RegistryKind.functions, filterMap_of_functions offers]
      exact Table.Holds.ofList _
  | fresh =>
      cases offers
      exact holds_builtins
  | builtin => cases offers

theorem naming_of_offers {kind : RegistryKind} {functions : List Function}
    (offers : kind.Offers functions) (slot : String) :
    (Step.newRegistry slot kind).registryNaming? = some (slot, .new) := by
  cases kind with
  | builtin => cases offers
  | offering | fresh => rfl

/-! ### Transitions -/

section

variable {s t : Session} {h : List Event} {action : Step}

namespace Agrees

theorem ready (agrees : Agrees s h) : s.Ready where
  sound := agrees.sound
  contexts named := by
    obtain ⟨o, -, stands⟩ := agrees.contexts.origin_of_named named
    obtain ⟨c, held, -⟩ := agrees.contexts.holds stands
    exact ⟨c, held⟩
  registries named := by
    obtain ⟨o, -, stands⟩ := agrees.registries.origin_of_named named
    obtain ⟨r, held, -⟩ := agrees.registries.holds stands
    exact ⟨r, held⟩

theorem fails (agrees : Agrees s h) (spares : s.Spares t) : Agrees t (⟨action, false⟩ :: h) where
  sound := spares.sound
  contexts := by
    rw [spares.contexts]
    refine agrees.contexts.mono fun stands has => ?_
    obtain ⟨c, held, follows⟩ := has
    exact ⟨c, spares.store.contexts held, follows⟩
  registries := by
    rw [spares.registries]
    refine agrees.registries.mono fun stands has => ?_
    obtain ⟨r, held, holds⟩ := has
    exact ⟨r, spares.store.registries held, holds⟩

theorem looks (agrees : Agrees s h) (looks : action.looks = true) (spares : s.Spares t) :
    Agrees t (⟨action, true⟩ :: h) where
  sound := spares.sound
  contexts := by
    rw [spares.contexts]
    refine agrees.contexts.unnamed ?_ (HasContext.kept spares.store.contexts ?_)
    all_goals cases action <;> first | rfl | cases looks
  registries := by
    rw [spares.registries]
    refine agrees.registries.unnamed ?_ (HasRegistry.kept spares.store.registries ?_ ?_)
    all_goals cases action <;> first | rfl | cases looks

/-- A transition keeps the agreement, with the step in the history. -/
theorem transition (agrees : Agrees s h) (taken : Transition s action t) :
    Agrees t (⟨action, true⟩ :: h) := by
  have contexts := agrees.contexts
  have registries := agrees.registries
  cases taken with
  | looks looks spares => exact agrees.looks looks spares
  | newContext slot made absent sound puts =>
      refine ⟨sound, contexts_made contexts rfl rfl absent puts ?_,
        registries.unnamed rfl (HasRegistry.kept puts.registries rfl rfl)⟩
      rw [ledger, if_pos rfl]
      exact follows_bindings made _
  | copies copies named held absent sound puts =>
      obtain ⟨o, origin, stands⟩ := contexts.origin_of_named named
      obtain ⟨c, held', follows⟩ := contexts.holds stands
      cases held.symm.trans held'
      have copied : ledger (.made h.length) (⟨action, true⟩ :: h) = ledger o h := by
        cases copies <;> simp only [ledger, if_pos, Step.parent?, Option.bind_some, origin]
      refine ⟨sound, contexts_made contexts ?_ ?_ absent puts (copied ▸ follows),
        registries.unnamed ?_ (HasRegistry.kept puts.registries ?_ ?_)⟩
      all_goals cases copies <;> rfl
  | emptyContext slot =>
      exact ⟨agrees.sound, contexts.filled_given (HasContext.kept id rfl) rfl,
        registries.unnamed rfl (HasRegistry.kept id rfl rfl)⟩
  | shareContext slot named =>
      exact ⟨agrees.sound, contexts.filled_same (HasContext.kept id rfl) rfl named,
        registries.unnamed rfl (HasRegistry.kept id rfl rfl)⟩
  | setVariable named held value sound puts =>
      refine ⟨sound, contexts_written contexts rfl rfl named held puts fun follows => ?_,
        registries.unnamed rfl (HasRegistry.kept puts.registries rfl rfl)⟩
      rw [value]
      exact ⟨follows.values.insert _ _, follows.functions⟩
  | define named held defined sound puts =>
      refine ⟨sound, contexts_written contexts rfl rfl named held puts fun follows => ?_,
        registries.unnamed rfl (HasRegistry.kept puts.registries rfl rfl)⟩
      rw [defined]
      exact ⟨follows.values, follows.functions.insert _ _⟩
  | installBuiltins named held sound puts =>
      refine ⟨sound, contexts_written contexts rfl rfl named held puts fun follows => ?_,
        registries.unnamed rfl (HasRegistry.kept puts.registries rfl rfl)⟩
      exact ⟨follows.values, follows.functions.insertAll holds_builtins⟩
  | installRegistry named held registered has sound puts =>
      obtain ⟨o, origin, stands⟩ := registries.origin_of_named registered
      obtain ⟨r, has', holds, -⟩ := registries.holds stands
      cases has.symm.trans has'
      refine ⟨sound, contexts_written contexts rfl rfl named held puts fun follows => ?_,
        registries.unnamed rfl (HasRegistry.kept puts.registries rfl rfl)⟩
      rw [origin]
      exact ⟨follows.values, follows.functions.insertAll holds⟩
  | newRegistry slot offers absent sound puts =>
      refine ⟨sound, contexts.unnamed rfl (HasContext.kept puts.contexts rfl), ?_⟩
      refine registries.filled_new (HasRegistry.kept (puts.keeps absent).registries rfl rfl) ?_
        (fun has => ?_) ⟨_, puts.put, ?_, ?_⟩
      · exact naming_of_offers offers slot
      · obtain ⟨r, held, -⟩ := has
        cases absent.symm.trans held
      · rw [registrations, if_pos rfl]
        exact holds_kind offers
      · rw [isFrozen_kept rfl, isFrozen_new (Nat.le_refl _)]
  | builtinRegistry slot =>
      exact ⟨agrees.sound, contexts.unnamed rfl (HasContext.kept id rfl),
        registries.filled_given (HasRegistry.kept id rfl rfl) rfl⟩
  | shareRegistry slot named =>
      exact ⟨agrees.sound, contexts.unnamed rfl (HasContext.kept id rfl),
        registries.filled_same (HasRegistry.kept id rfl rfl) rfl named⟩
  | register named has isOpen offered sound puts =>
      refine ⟨sound, contexts.unnamed rfl (HasContext.kept puts.contexts rfl),
        registries_written registries rfl named has puts (fun origin old holds frozen => ?_)
          fun origin old => ?_⟩
      · rw [registrations_registered old rfl, if_pos origin, function?_eq_some.2 offered,
          isFrozen_kept rfl]
        exact ⟨holds.insert _ _, frozen⟩
      · rw [registrations_registered old rfl, if_neg origin]
        exact ⟨rfl, isFrozen_kept rfl⟩
  | freeze named has sound puts =>
      refine ⟨sound, contexts.unnamed rfl (HasContext.kept puts.contexts rfl),
        registries_written registries rfl named has puts (fun origin old holds frozen => ?_)
          fun origin old => ?_⟩
      · rw [registrations_kept old rfl, isFrozen_frozen rfl, decide_eq_true origin, Bool.true_or]
        exact ⟨holds, rfl⟩
      · rw [isFrozen_frozen rfl, decide_eq_false origin, Bool.false_or]
        exact ⟨registrations_kept old rfl, rfl⟩

theorem step (agrees : Agrees s h) (action : Step) :
    Agrees (s.step action).session (⟨action, (s.step action).answer.isOk⟩ :: h) := by
  cases comes agrees.ready action with
  | fails answer spares _ =>
      rw [answer]
      exact agrees.fails spares
  | does answer taken _ =>
      rw [answer]
      exact agrees.transition taken

theorem initial (engine : Engine) : Agrees { engine } [] where
  sound := .initial
  contexts := .initial (fun _ => rfl) ⟨.empty, rfl, .empty, .empty⟩
  registries := .initial (fun _ => rfl) ⟨.builtin, rfl, holds_builtins, rfl⟩

/-- At any time a session agrees with its history. -/
theorem history (engine : Engine) (steps : List Step) :
    Agrees (after { engine } steps) (Session.history { engine } steps) := by
  induction steps using List.reverseRecOn with
  | nil => exact .initial engine
  | append_singleton earlier action ih =>
      rw [history_append_step, after_append]
      exact ih.step action

theorem sight_eq (agrees : Agrees s h) : s.sight = sightOf h := by
  rw [sight, sightOf, Sight.mk.injEq]
  refine ⟨funext fun slot => ?_, funext fun slot => ?_⟩
  · cases named : s.contexts.get? slot with
    | none =>
        rw [agrees.contexts.origin_of_absent named]
        rfl
    | some id =>
        obtain ⟨o, origin, stands⟩ := agrees.contexts.origin_of_named named
        have same : id = emptyContext ↔ o = .given := agrees.contexts.same stands .given
        simp only [origin, Option.map_some, ne_eq, same]
  · cases named : s.registries.get? slot with
    | none =>
        rw [agrees.registries.origin_of_absent named]
        rfl
    | some id =>
        obtain ⟨o, origin, stands⟩ := agrees.registries.origin_of_named named
        obtain ⟨r, has, -, frozen⟩ := agrees.registries.holds stands
        simp only [origin, Option.bind_some, has, Option.map_some, frozen]

end Agrees

/-! ### What is never changed -/

theorem frozen_step {id : Nat} {r : Registry} (ready : s.Ready) (has : s.store.registryAt? id = some r)
    (frozen : r.isFrozen = true) (action : Step) :
    (s.step action).session.store.registryAt? id = some r := by
  cases comes ready action with
  | fails _ spares _ => exact spares.store.registries has
  | does _ taken _ =>
      generalize (s.step action).session = t at taken ⊢
      cases taken with
      | looks _ spares => exact spares.store.registries has
      | newContext _ _ _ _ puts | copies _ _ _ _ _ puts | setVariable _ _ _ _ puts
      | define _ _ _ _ puts | installBuiltins _ _ _ puts | installRegistry _ _ _ _ _ puts =>
          exact puts.registries has
      | emptyContext | shareContext | builtinRegistry | shareRegistry => exact has
      | newRegistry _ _ absent _ puts => exact (puts.keeps absent).registries has
      | @register slot offer f other r' u named has' isOpen offered sound puts =>
          refine puts.others ?_ has
          rintro rfl
          cases has.symm.trans has'
          cases frozen.symm.trans isOpen
      | @freeze slot other r' u named has' sound puts =>
          by_cases same : id = other
          · subst same
            cases has.symm.trans has'
            rw [puts.put, ← frozen]
          · exact puts.others same has

theorem frozen_after {id : Nat} {r : Registry} (agrees : Agrees s h)
    (has : s.store.registryAt? id = some r) (frozen : r.isFrozen = true) (more : List Step) :
    (s.after more).store.registryAt? id = some r := by
  induction more generalizing s h with
  | nil => exact has
  | cons action rest ih => exact ih (agrees.step action) (frozen_step agrees.ready has frozen action)

theorem context_step {id : Nat} {c : Context} (ready : s.Ready) (held : s.store.contextAt? id = some c)
    (apart : ∀ slot written, action.written? h = some (slot, written) →
      s.contexts.get? slot ≠ some id) : (s.step action).session.store.contextAt? id = some c := by
  cases comes ready action with
  | fails _ spares _ => exact spares.store.contexts held
  | does _ taken _ =>
      generalize (s.step action).session = t at taken ⊢
      cases taken with
      | looks _ spares => exact spares.store.contexts held
      | newContext _ _ absent _ puts | copies _ _ _ absent _ puts =>
          exact (puts.keeps absent).contexts held
      | emptyContext | shareContext | builtinRegistry | shareRegistry => exact held
      | newRegistry _ _ _ _ puts | register _ _ _ _ _ puts | freeze _ _ _ puts =>
          exact puts.contexts held
      | setVariable named _ _ _ puts | define named _ _ _ puts | installBuiltins named _ _ puts
      | installRegistry named _ _ _ _ puts =>
          refine puts.others ?_ held
          rintro rfl
          exact apart _ _ rfl named

end

/-! ### Lookups -/

theorem Follows.findFunction {c : Context} {l : Ledger} (follows : Follows c l) (name : String) :
    c.findFunction name = l.function? name := by
  rw [Context.findFunction, Ledger.function?, follows.functions.latest]
  cases l.functions.lookup name <;> rfl

section

variable {s : Session} {h : List Event} {action : Step} {slot : String}

theorem answer_of_absent {slots : Session → Table Nat} {rest : Nat → Action Answer}
    (performed : perform action = held slots slot >>= rest) (absent : (slots s).get? slot = none) :
    (s.step action).answer = .error (.wordless .emptySlot) := by
  rw [Session.step, performed, value_bind_of_error (value_held_none absent)]

/-- A step that looks something up in the object of a slot answers what the store does. -/
theorem answer_of_named {α : Type} {slots : Session → Table Nat} {operation : Nat → Store.Operation α}
    {answer : α → Answer} {id : Nat} {result : Fallible α}
    (performed : perform action = do
      let id ← held slots slot
      let a ← onStore fun _ => operation id
      return answer a)
    (named : (slots s).get? slot = some id)
    (found : ((operation id).outcome s.store).value = (result, s.store)) :
    (s.step action).answer = result.map answer := by
  rw [Session.step, performed, value_bind_of_ok (value_held named)]
  cases result with
  | error failure => rw [value_bind_of_error (value_look found)]; rfl
  | ok a => rw [value_bind_of_ok (value_look found)]; rfl

variable (agrees : Agrees s h) (slot name : String)

include agrees

theorem answer_lookUpVariable :
    (s.step (.lookUpVariable slot name)).answer =
      match contextOf slot h with
      | none => .error (.wordless .emptySlot)
      | some o =>
        match (ledger o h).values.lookup name with
        | none => .error (.unboundVariable name)
        | some v => .ok (.number v) := by
  cases named : s.contexts.get? slot with
  | none => rw [answer_of_absent rfl named, agrees.contexts.origin_of_absent named]
  | some id =>
      obtain ⟨o, origin, stands⟩ := agrees.contexts.origin_of_named named
      obtain ⟨c, held, follows⟩ := agrees.contexts.holds stands
      rw [answer_of_named rfl named (Store.value_variableValue held name), origin]
      simp only [Context.variableValue, follows.values.latest]
      cases (ledger o h).values.lookup name <;> rfl

theorem answer_findFunction :
    (s.step (.findFunction slot name)).answer =
      match contextOf slot h with
      | none => .error (.wordless .emptySlot)
      | some o => .ok (.function ((ledger o h).function? name)) := by
  cases named : s.contexts.get? slot with
  | none => rw [answer_of_absent rfl named, agrees.contexts.origin_of_absent named]
  | some id =>
      obtain ⟨o, origin, stands⟩ := agrees.contexts.origin_of_named named
      obtain ⟨c, held, follows⟩ := agrees.contexts.holds stands
      rw [answer_of_named rfl named (Store.value_findFunction agrees.sound held name), origin,
        follows.findFunction]
      rfl

theorem answer_resolveFunction :
    (s.step (.resolveFunction slot name)).answer =
      match contextOf slot h with
      | none => .error (.wordless .emptySlot)
      | some o =>
        match (ledger o h).function? name with
        | none => .error (.unknownFunction name)
        | some f => .ok (.function (some f)) := by
  cases named : s.contexts.get? slot with
  | none => rw [answer_of_absent rfl named, agrees.contexts.origin_of_absent named]
  | some id =>
      obtain ⟨o, origin, stands⟩ := agrees.contexts.origin_of_named named
      obtain ⟨c, held, follows⟩ := agrees.contexts.holds stands
      rw [answer_of_named rfl named (Store.value_resolve agrees.sound held name), origin]
      simp only [Context.resolve, follows.findFunction]
      cases (ledger o h).function? name <;> rfl

theorem answer_getFunction :
    (s.step (.getFunction slot name)).answer =
      match registryOf slot h with
      | none => .error (.wordless .emptySlot)
      | some o => .ok (.function ((registrations o h).lookup name)) := by
  cases named : s.registries.get? slot with
  | none => rw [answer_of_absent rfl named, agrees.registries.origin_of_absent named]
  | some id =>
      obtain ⟨o, origin, stands⟩ := agrees.registries.origin_of_named named
      obtain ⟨r, has, holds, -⟩ := agrees.registries.holds stands
      rw [answer_of_named rfl named (Store.value_registry has), origin, Except.map, holds.latest]

theorem isOk_step {expected : Bool} (expects : succeeds? (sightOf h) action = some expected) :
    (s.step action).answer.isOk = expected := by
  rw [← agrees.sight_eq] at expects
  cases comes agrees.ready action with
  | fails answer _ unexpected =>
      rw [answer]
      cases expected with
      | false => rfl
      | true => exact absurd expects unexpected
  | does answer _ unexpected =>
      rw [answer]
      cases expected with
      | false => exact absurd expects unexpected
      | true => rfl

theorem spares_of_error {failure : Failure} (failed : (s.step action).answer = .error failure) :
    s.Spares (s.step action).session := by
  cases comes agrees.ready action with
  | fails _ spares _ => exact spares
  | does answer _ _ => cases failed.symm.trans answer

/-- Freezing makes a registry what it is ever after. -/
theorem freeze_after {id : Nat} {r : Registry} (named : s.registries.get? slot = some id)
    (has : s.store.registryAt? id = some r) (more : List Step) :
    (s.after (.freeze slot :: more)).store.registryAt? id = some ⟨r.functions, true⟩ := by
  refine frozen_after (agrees.step (.freeze slot)) ?_ rfl more
  cases comes agrees.ready (.freeze slot) with
  | fails _ _ unexpected =>
      refine absurd ?_ unexpected
      simp [succeeds?, open?_of_named named has]
  | does _ taken _ =>
      generalize (s.step (.freeze slot)).session = t at taken ⊢
      cases taken with
      | looks looks => cases looks
      | copies copies => cases copies
      | freeze named' has' sound puts =>
          cases named.symm.trans named'
          cases has.symm.trans has'
          exact puts.put

omit agrees in
theorem contexts_emptyContext (ready : s.Ready) (slot : String) :
    (s.step (.emptyContext slot)).session.contexts.get? slot = some emptyContext := by
  have done := congrArg Prod.snd (value_answerContext slot ready.sound.empty)
  rw [show (s.step (.emptyContext slot)).session = _ from done, Table.get?_insert, if_pos rfl]

omit agrees in
theorem registries_builtinRegistry (ready : s.Ready) (slot : String) :
    (s.step (.newRegistry slot .builtin)).session.registries.get? slot = some builtinRegistry := by
  have done := congrArg Prod.snd (value_answerRegistry slot ready.sound.builtin)
  rw [show (s.step (.newRegistry slot .builtin)).session = _ from done, Table.get?_insert, if_pos rfl]

end

/-- Registries and contexts keep their promises over whole histories. After any steps a lookup finds
what was written last to the object that the slot names, or up to its snapshot to its ancestors, and else
a built-in function or nothing. The history tells which of the steps on contexts and registries succeed.
A step that fails leaves all names and objects as they were, and one that succeeds changes no context but
the one that it writes to. A registry that is frozen is never changed again, and freezing one changes
nothing else. The context without bindings and the built-in registry are what they were at the start. -/
theorem lookups_of_history (engine : Engine) (steps : List Step) :
    let s := after { engine } steps
    let h := history { engine } steps
    (∀ slot name, (s.step (.lookUpVariable slot name)).answer =
        match contextOf slot h with
        | none => .error (.wordless .emptySlot)
        | some o =>
          match (ledger o h).values.lookup name with
          | none => .error (.unboundVariable name)
          | some v => .ok (.number v)) ∧
      (∀ slot name, (s.step (.findFunction slot name)).answer =
        match contextOf slot h with
        | none => .error (.wordless .emptySlot)
        | some o => .ok (.function ((ledger o h).function? name))) ∧
      (∀ slot name, (s.step (.resolveFunction slot name)).answer =
        match contextOf slot h with
        | none => .error (.wordless .emptySlot)
        | some o =>
          match (ledger o h).function? name with
          | none => .error (.unknownFunction name)
          | some f => .ok (.function (some f))) ∧
      (∀ slot name, (s.step (.getFunction slot name)).answer =
        match registryOf slot h with
        | none => .error (.wordless .emptySlot)
        | some o => .ok (.function ((registrations o h).lookup name))) ∧
      (∀ action expected, succeeds? (sightOf h) action = some expected →
        (s.step action).answer.isOk = expected) ∧
      (∀ action failure, (s.step action).answer = .error failure →
        s.Spares (s.step action).session) ∧
      (∀ action id c, s.store.contextAt? id = some c →
        (∀ slot written, action.written? h = some (slot, written) →
          s.contexts.get? slot ≠ some id) →
        (s.step action).session.store.contextAt? id = some c) ∧
      (∀ id r, s.store.registryAt? id = some r → r.isFrozen = true →
        ∀ more, (s.after more).store.registryAt? id = some r) ∧
      (∀ slot id r, s.registries.get? slot = some id → s.store.registryAt? id = some r →
        ∀ more, (s.after (.freeze slot :: more)).store.registryAt? id = some ⟨r.functions, true⟩) ∧
      s.store.contextAt? emptyContext = some .empty ∧
      s.store.registryAt? builtinRegistry = some .builtin ∧
      ∀ slot, (s.step (.emptyContext slot)).session.contexts.get? slot = some emptyContext ∧
        (s.step (.newRegistry slot .builtin)).session.registries.get? slot = some builtinRegistry := by
  intro s h
  have agrees : Agrees s h := .history engine steps
  exact ⟨answer_lookUpVariable agrees, answer_findFunction agrees, answer_resolveFunction agrees,
    answer_getFunction agrees, fun _ _ expects => isOk_step agrees expects,
    fun _ _ failed => spares_of_error agrees failed,
    fun _ _ _ held apart => context_step agrees.ready held apart,
    fun _ _ has frozen more => frozen_after agrees has frozen more,
    fun slot _ _ named has more => freeze_after agrees slot named has more,
    agrees.sound.empty, agrees.sound.builtin, fun slot =>
      ⟨contexts_emptyContext agrees.ready slot, registries_builtinRegistry agrees.ready slot⟩⟩

example :
    let s := after {} [.newContext "parent" {} false, .childContext "parent" "child",
      .shareContext "parent" "same", .setVariable "parent" "x" (.integer 1)]
    (s.step (.lookUpVariable "same" "x")).answer = .ok (.number 1.0) ∧
      (s.step (.lookUpVariable "child" "x")).answer = .error (.unboundVariable "x") :=
  ⟨rfl, rfl⟩

end Formula.Session
