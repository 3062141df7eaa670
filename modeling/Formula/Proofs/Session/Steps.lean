import Formula.Proofs.Expr.Evaluation
import Formula.Proofs.Session.Transitions

/-!
What comes of each step. A step is taken apart into its lookups and the operation on the store.
-/

set_option autoImplicit false

namespace Formula.Session

open Stateful
open Store (emptyContext builtinRegistry)

variable {s t : Session} {u : Store} {action : Step} {slot : String} {id : Nat} {c : Context}
  {r : Registry}

/-! ### Parts of steps -/

theorem value_held {α : Type} {slots : Session → Table α} {a : α}
    (found : (slots s).get? slot = some a) :
    ((held slots slot).outcome s).value = (.ok a, s) := congrArg Logged.value (outcome_held found)

theorem value_held_none {α : Type} {slots : Session → Table α} (absent : (slots s).get? slot = none) :
    ((held slots slot).outcome s).value = (.error (.wordless .emptySlot), s) :=
  congrArg Logged.value (outcome_held_none absent)

theorem value_onStore {α : Type} {operation : Level → Store.Operation α} {result : Fallible α}
    (done : ((operation s.engine.level).outcome s.store).value = (result, u)) :
    ((onStore operation).outcome s).value = (result, { s with store := u }) :=
  congrArg (fun value : Fallible α × Store => (value.1, { s with store := value.2 })) done

/-- What an operation answers that changes nothing. -/
theorem value_look {α : Type} {operation : Store.Operation α} {result : Fallible α}
    (done : (operation.outcome s.store).value = (result, s.store)) :
    ((onStore fun _ => operation).outcome s).value = (result, s) := value_onStore done

theorem value_describeContext (held : s.store.contextAt? id = some c) :
    ((describeContext id).outcome s).value = (.ok (.text c.describe), s) := by
  rw [describeContext, value_bind_of_ok (value_look (Store.value_context held))]
  rfl

theorem value_answerContext (slot : String) (held : s.store.contextAt? id = some c) :
    ((answerContext slot id).outcome s).value =
      (.ok (.text c.describe), { s with contexts := s.contexts.insert slot id }) :=
  value_describeContext (s := { s with contexts := s.contexts.insert slot id }) held

theorem value_describeRegistry (has : s.store.registryAt? id = some r) :
    ((describeRegistry id).outcome s).value = (.ok (.registry r), s) := by
  rw [describeRegistry, value_bind_of_ok (value_look (Store.value_registry has))]
  rfl

theorem value_answerRegistry (slot : String) (has : s.store.registryAt? id = some r) :
    ((answerRegistry slot id).outcome s).value =
      (.ok (.registry r), { s with registries := s.registries.insert slot id }) :=
  value_describeRegistry (s := { s with registries := s.registries.insert slot id }) has

section

variable {change : Nat → Action Unit} (named : s.contexts.get? slot = some id)

include named

theorem value_changeContext (done : ((change id).outcome s).value = (.ok (), t))
    (held : t.store.contextAt? id = some c) :
    ((changeContext slot change).outcome s).value = (.ok (.text c.describe), t) := by
  rw [changeContext, value_bind_of_ok (value_held named), value_bind_of_ok done,
    value_describeContext held]

theorem value_changeContext_of_error {failure : Failure}
    (failed : ((change id).outcome s).value = (.error failure, t)) :
    ((changeContext slot change).outcome s).value = (.error failure, t) := by
  rw [changeContext, value_bind_of_ok (value_held named), value_bind_of_error failed]

end

/-! ### Steps on contexts -/

theorem writable?_of_named (named : s.contexts.get? slot = some id) :
    s.sight.writable? slot = some (decide (id ≠ emptyContext)) :=
  congrArg (Option.map fun id => decide (id ≠ emptyContext)) named

theorem writable?_of_absent (absent : s.contexts.get? slot = none) :
    s.sight.writable? slot = none :=
  congrArg (Option.map fun id => decide (id ≠ emptyContext)) absent

section

variable (ready : s.Ready)

include ready

/-- A step that reads a slot which is empty. -/
theorem comes_of_absent {α : Type} {slots : Session → Table α} {rest : α → Action Answer}
    (performed : ((perform action).outcome s).value = ((held slots slot >>= rest).outcome s).value)
    (absent : (slots s).get? slot = none)
    (expected : succeeds? s.sight action ≠ some true) : Comes s action (s.step action) := by
  have failed := performed.trans (value_bind_of_error (value_held_none absent))
  exact .of_error failed ready.spares expected

theorem comes_emptyContext (slot : String) :
    Comes s (.emptyContext slot) (s.step (.emptyContext slot)) :=
  .of_ok (value_answerContext slot ready.sound.empty) (.emptyContext slot) nofun

theorem comes_shareContext (slot into : String) :
    Comes s (.shareContext slot into) (s.step (.shareContext slot into)) := by
  cases named : s.contexts.get? slot with
  | none =>
      refine comes_of_absent ready rfl named ?_
      simp [succeeds?, writable?_of_absent named]
  | some id =>
      obtain ⟨c, held⟩ := ready.contexts named
      have done := (value_bind_of_ok (value_held named)).trans (value_answerContext into held)
      refine .of_ok done (.shareContext into named) ?_
      simp [succeeds?, writable?_of_named named]

theorem comes_copies {into : String} {copy : Nat → Store.Operation Nat}
    (copies : Copies slot into action)
    (performed : perform action = do
      let id ← held contexts slot
      let new ← onStore fun _ => copy id
      answerContext into new)
    (makes : ∀ {id c}, s.store.contextAt? id = some c → s.store.MakesContext (copy id) c) :
    Comes s action (s.step action) := by
  have expects : succeeds? s.sight action = some (s.sight.writable? slot).isSome := by
    cases copies <;> rfl
  cases named : s.contexts.get? slot with
  | none =>
      refine comes_of_absent ready (congrArg (fun x => (outcome x s).value) performed) named ?_
      simp [expects, writable?_of_absent named]
  | some id =>
      obtain ⟨c, held⟩ := ready.contexts named
      obtain ⟨new, u, done, sound, absent, puts⟩ := makes held
      have expected : succeeds? s.sight action ≠ some false := by
        simp [expects, writable?_of_named named]
      refine .of_ok (a := .text c.describe) ?_ (.copies copies named held absent sound puts) expected
      rw [performed, value_bind_of_ok (value_held named), value_bind_of_ok (value_onStore done)]
      exact value_answerContext (s := { s with store := u }) into puts.put

end

/-- A write to the context of a slot, which no other context refuses than the empty one. -/
theorem comes_of_write {change : Nat → Action Unit} {operation : Nat → Store.Operation Unit}
    {written : Context → Context} (ready : s.Ready)
    (performed : ((perform action).outcome s).value = ((changeContext slot change).outcome s).value)
    (changes : ∀ id,
      ((change id).outcome s).value = ((onStore fun _ => operation id).outcome s).value)
    (expects : succeeds? s.sight action = some (s.sight.writable? slot == some true))
    (refuses : s.store.Refuses (operation emptyContext))
    (writes : ∀ {id c}, s.store.contextAt? id = some c → id ≠ emptyContext →
      s.store.WritesContext (operation id) id (written c))
    (taken : ∀ {id c u}, s.contexts.get? slot = some id → s.store.contextAt? id = some c →
      u.Sound → s.store.PutsContext u id (written c) →
        Transition s action { s with store := u }) : Comes s action (s.step action) := by
  cases named : s.contexts.get? slot with
  | none =>
      refine comes_of_absent ready performed named ?_
      simp [expects, writable?_of_absent named]
  | some id =>
      by_cases locked : id = emptyContext
      · subst locked
        obtain ⟨failure, u, failed, sound, keeps⟩ := refuses
        have refused := value_changeContext_of_error named
          ((changes emptyContext).trans (value_onStore failed))
        refine .of_error (performed.trans refused) ⟨rfl, rfl, sound, keeps⟩ ?_
        simp [expects, writable?_of_named named]
      · obtain ⟨c, held⟩ := ready.contexts named
        obtain ⟨u, done, sound, puts⟩ := writes held locked
        have answered := value_changeContext (t := { s with store := u }) named
          ((changes id).trans (value_onStore done)) puts.put
        refine .of_ok (performed.trans answered) (taken named held sound puts) ?_
        simp [expects, writable?_of_named named, locked]

section

variable (ready : s.Ready)

include ready

/-- A write that fails before it comes to the store. -/
theorem comes_of_unready {change : Nat → Action Unit} {failure : Failure}
    (performed : perform action = changeContext slot change)
    (fails : ∀ {id c}, s.store.contextAt? id = some c →
      ((change id).outcome s).value = (.error failure, s))
    (expected : succeeds? s.sight action ≠ some true) : Comes s action (s.step action) := by
  have performed' := congrArg (fun x => (outcome x s).value) performed
  cases named : s.contexts.get? slot with
  | none => exact comes_of_absent ready performed' named expected
  | some id =>
      obtain ⟨c, held⟩ := ready.contexts named
      have failed := value_changeContext_of_error named (fails held)
      exact .of_error (performed'.trans failed) ready.spares expected

theorem comes_setVariable (slot name : String) (number : Number) :
    Comes s (.setVariable slot name number) (s.step (.setVariable slot name number)) := by
  cases value : number.toDouble with
  | error failure =>
      refine comes_of_unready ready rfl
        (fun held => value_onStore (Store.value_setVariable_unreadable held value)) ?_
      simp [succeeds?, value, Except.isOk, Except.toBool]
  | ok v =>
      refine comes_of_write ready rfl (fun _ => rfl) ?_
        (Store.refuses_setVariable_locked ready.sound value)
        (fun held writable => Store.writesContext_setVariable ready.sound held writable value)
        fun named held => .setVariable named held value
      simp [succeeds?, value, Except.isOk, Except.toBool]

theorem comes_define (slot : String) (fields : Definition.Fields Context) :
    Comes s (.define slot fields) (s.step (.define slot fields)) := by
  cases defined : Definition.ofFields fields with
  | error failure =>
      refine comes_of_unready ready rfl
        (fun _ => value_bind_of_error (value_ofFallible defined)) ?_
      simp [succeeds?, defined, Except.isOk, Except.toBool]
  | ok f =>
      refine comes_of_write ready rfl (fun _ => value_bind_of_ok (value_ofFallible defined)) ?_
        (Store.refuses_define_locked ready.sound f)
        (fun held writable => Store.writesContext_define ready.sound held writable)
        fun named held => .define named held defined
      simp [succeeds?, defined, Except.isOk, Except.toBool]

theorem comes_installBuiltins (slot : String) :
    Comes s (.installBuiltins slot) (s.step (.installBuiltins slot)) :=
  comes_of_write ready rfl (fun _ => rfl) rfl
    (Store.refuses_install_locked ready.sound ready.sound.builtin)
    (fun held => Store.writesContext_install ready.sound held ready.sound.builtin)
    fun named held => .installBuiltins named held

theorem value_makeContext {bindings : Bindings} (made : bindings.context = .ok c)
    (withBuiltins : Bool) :
    ∃ id u, ((makeContext bindings withBuiltins).outcome s).value = (.ok id, { s with store := u }) ∧
      s.store.contextAt? id = none ∧ u.Sound ∧ s.store.PutsContext u id
        (if withBuiltins then ⟨c.values, c.functions.insertAll Registry.builtin.functions⟩ else c) := by
  obtain ⟨id, u, done, sound, absent, puts⟩ := Store.makesContext_construct ready.sound c
  have begun : ((makeContext bindings withBuiltins).outcome s).value = _ :=
    (value_bind_of_ok (value_ofFallible made)).trans (value_bind_of_ok (value_onStore done))
  cases withBuiltins with
  | false => exact ⟨id, u, begun, absent, sound, puts⟩
  | true =>
      have writable : id ≠ emptyContext := by
        rintro rfl
        cases absent.symm.trans ready.sound.empty
      obtain ⟨u', done', sound', puts'⟩ :=
        Store.writesContext_install sound puts.put sound.builtin writable
      have installed : ((onStore fun _ => Store.install builtinRegistry id).outcome
          { s with store := u }).value = (.ok (), { s with store := u' }) := value_onStore done'
      exact ⟨id, u', begun.trans (value_bind_of_ok installed), absent, sound', puts.trans puts'⟩

theorem comes_newContext (slot : String) (bindings : Bindings) (withBuiltins : Bool) :
    Comes s (.newContext slot bindings withBuiltins)
      (s.step (.newContext slot bindings withBuiltins)) := by
  cases made : bindings.context with
  | error failure =>
      have failed : ((makeContext bindings withBuiltins).outcome s).value = (.error failure, s) :=
        value_bind_of_error (value_ofFallible made)
      refine .of_error (value_bind_of_error failed) ready.spares ?_
      simp [succeeds?, made, Except.isOk, Except.toBool]
  | ok c =>
      obtain ⟨id, u, done, absent, sound, puts⟩ := value_makeContext ready made withBuiltins
      have answered := value_answerContext (s := { s with store := u }) slot puts.put
      refine .of_ok ((value_bind_of_ok done).trans answered)
        (.newContext slot made absent sound puts) ?_
      simp [succeeds?, made, Except.isOk, Except.toBool]

end

/-! ### Steps on registries -/

theorem open?_of_named (named : s.registries.get? slot = some id)
    (has : s.store.registryAt? id = some r) : s.sight.open? slot = some !r.isFrozen := by
  simp [sight, named, has]

theorem open?_of_absent (absent : s.registries.get? slot = none) : s.sight.open? slot = none := by
  simp [sight, absent]

/-- An offer that the registry of a slot does not take. -/
theorem comes_register_refused {offer : Offer} {failure : Failure} {u : Store}
    (named : s.registries.get? slot = some id)
    (failed : ((registerIn offer id).outcome s).value = (.error failure, { s with store := u }))
    (sound : u.Sound) (keeps : s.store.Keeps u)
    (expected : succeeds? s.sight (.register slot offer) ≠ some true) :
    Comes s (.register slot offer) (s.step (.register slot offer)) := by
  have answered : ((perform (.register slot offer)).outcome s).value =
      (.error failure, { s with store := u }) := by
    simp only [perform]
    rw [value_bind_of_ok (value_held named), value_bind_of_error failed]
  exact .of_error answered ⟨rfl, rfl, sound, keeps⟩ expected

section

variable (ready : s.Ready)

include ready

theorem comes_shareRegistry (slot into : String) :
    Comes s (.shareRegistry slot into) (s.step (.shareRegistry slot into)) := by
  cases named : s.registries.get? slot with
  | none =>
      refine comes_of_absent ready rfl named ?_
      simp [succeeds?, open?_of_absent named]
  | some id =>
      obtain ⟨r, has⟩ := ready.registries named
      have done := (value_bind_of_ok (value_held named)).trans (value_answerRegistry into has)
      refine .of_ok done (.shareRegistry into named) ?_
      simp [succeeds?, open?_of_named named has]

theorem comes_freeze (slot : String) : Comes s (.freeze slot) (s.step (.freeze slot)) := by
  cases named : s.registries.get? slot with
  | none =>
      refine comes_of_absent ready rfl named ?_
      simp [succeeds?, open?_of_absent named]
  | some id =>
      obtain ⟨r, has⟩ := ready.registries named
      obtain ⟨u, done, sound, puts⟩ := Store.writesRegistry_freeze ready.sound has
      have frozen : ((onStore fun _ => Store.freeze id).outcome s).value =
          (.ok (), { s with store := u }) := value_onStore done
      have answered : ((perform (.freeze slot)).outcome s).value =
          (.ok (.flag true), { s with store := u }) := by
        simp only [perform]
        rw [value_bind_of_ok (value_held named), value_bind_of_ok frozen]
        rfl
      refine .of_ok answered (.freeze named has sound puts) ?_
      simp [succeeds?, open?_of_named named has]

theorem comes_register (slot : String) (offer : Offer) :
    Comes s (.register slot offer) (s.step (.register slot offer)) := by
  cases named : s.registries.get? slot with
  | none =>
      refine comes_of_absent ready rfl named ?_
      simp [succeeds?, open?_of_absent named]
  | some id =>
      obtain ⟨r, has⟩ := ready.registries named
      cases offered : offer.function with
      | error failure =>
          refine comes_register_refused named (value_bind_of_error (value_ofFallible offered))
            ready.sound (Store.Keeps.refl _) ?_
          simp [succeeds?, function?, offered, Except.toOption]
      | ok taken =>
          have begun : ((registerIn offer id).outcome s).value =
              ((onStore fun level => Store.register level id taken).outcome s).value :=
            value_bind_of_ok (value_ofFallible offered)
          cases taken with
          | none =>
              obtain ⟨failure, u, failed, sound, keeps⟩ :=
                Store.refuses_register_other ready.sound has s.engine.level
              refine comes_register_refused named (begun.trans (value_onStore failed)) sound keeps ?_
              simp [succeeds?, function?, offered, Except.toOption]
          | some f =>
              cases frozen : r.isFrozen with
              | true =>
                  obtain ⟨failure, u, failed, sound, keeps⟩ :=
                    Store.refuses_register_frozen ready.sound has s.engine.level frozen f
                  refine comes_register_refused named (begun.trans (value_onStore failed)) sound
                    keeps ?_
                  simp [succeeds?, open?_of_named named has, frozen]
              | false =>
                  obtain ⟨u, done, sound, puts⟩ :=
                    Store.writesRegistry_register ready.sound has s.engine.level frozen f
                  have answered : ((perform (.register slot offer)).outcome s).value =
                      (.ok (.function (some f)), { s with store := u }) := by
                    simp only [perform]
                    rw [value_bind_of_ok (value_held named),
                      value_bind_of_ok (begun.trans (value_onStore done))]
                    rfl
                  refine .of_ok answered (.register named has frozen offered sound puts) ?_
                  simp [succeeds?, function?, offered, Except.toOption, open?_of_named named has,
                    frozen]

theorem comes_installRegistry (registry slot : String) :
    Comes s (.installRegistry registry slot) (s.step (.installRegistry registry slot)) := by
  cases registered : s.registries.get? registry with
  | none =>
      refine comes_of_absent ready rfl registered ?_
      simp [succeeds?, open?_of_absent registered]
  | some other =>
      obtain ⟨r, has⟩ := ready.registries registered
      refine comes_of_write ready (value_bind_of_ok (value_held registered)) (fun _ => rfl) ?_
        (Store.refuses_install_locked ready.sound has)
        (fun held => Store.writesContext_install ready.sound held has)
        fun named held => .installRegistry named held registered has
      simp [succeeds?, open?_of_named registered has]

end

/-! ### New registries -/

theorem function?_eq_some {offer : Offer} {f : Function} :
    function? offer = some f ↔ offer.function = .ok (some f) := by
  unfold function?
  cases offer.function with
  | error failure => simp [Except.toOption]
  | ok taken => simp [Except.toOption]

theorem functions_of_all {offers : List Offer}
    (all : offers.all (fun offer => (function? offer).isSome) = true) :
    ∃ functions : List Function, Offer.functions offers = .ok (functions.map some) := by
  induction offers with
  | nil => exact ⟨[], rfl⟩
  | cons offer rest ih =>
      rw [List.all_cons, Bool.and_eq_true, Option.isSome_iff_exists] at all
      obtain ⟨⟨f, taken⟩, all⟩ := all
      obtain ⟨functions, made⟩ := ih all
      refine ⟨f :: functions, ?_⟩
      rw [Offer.functions, function?_eq_some.1 taken, made]
      rfl

theorem other_of_not_all {offers : List Offer} {made : List (Option Function)}
    (others : offers.all (fun offer => (function? offer).isSome) = false)
    (done : Offer.functions offers = .ok made) : none ∈ made := by
  induction offers generalizing made with
  | nil => cases others
  | cons offer rest ih =>
      simp only [Offer.functions, bind_eq_ok, pure, Except.pure, Except.ok.injEq] at done
      obtain ⟨taken, offered, later, done, rfl⟩ := done
      cases taken with
      | none => exact List.mem_cons_self
      | some f =>
          rw [List.all_cons, function?_eq_some.2 offered] at others
          exact List.mem_cons_of_mem _ (ih others done)

section

variable (ready : s.Ready)

include ready

theorem comes_newRegistry_of_made {kind : RegistryKind} {functions : List Function}
    (slot : String) (offers : kind.Offers functions)
    (begun : ((makeRegistry kind).outcome s).value =
      ((onStore fun level => Store.newRegistry level (functions.map some)).outcome s).value)
    (expected : succeeds? s.sight (.newRegistry slot kind) ≠ some false) :
    Comes s (.newRegistry slot kind) (s.step (.newRegistry slot kind)) := by
  obtain ⟨id, u, done, sound, absent, puts⟩ :=
    Store.makesRegistry_newRegistry ready.sound s.engine.level functions
  have made := begun.trans (value_onStore done)
  have answered := value_answerRegistry (s := { s with store := u }) slot puts.put
  exact .of_ok ((value_bind_of_ok made).trans answered) (.newRegistry slot offers absent sound puts)
    expected

theorem comes_newRegistry_offering (slot : String) (offers : List Offer) :
    Comes s (.newRegistry slot (.offering offers))
      (s.step (.newRegistry slot (.offering offers))) := by
  cases all : offers.all fun offer => (function? offer).isSome with
  | true =>
      obtain ⟨functions, made⟩ := functions_of_all all
      refine comes_newRegistry_of_made ready slot made
        (value_bind_of_ok (value_ofFallible made)) ?_
      simp only [succeeds?, all]
      nofun
  | false =>
      have expected : succeeds? s.sight (.newRegistry slot (.offering offers)) ≠ some true := by
        simp only [succeeds?, all]
        nofun
      cases made : Offer.functions offers with
      | error failure =>
          have failed : ((makeRegistry (.offering offers)).outcome s).value = (.error failure, s) :=
            value_bind_of_error (value_ofFallible made)
          exact .of_error (value_bind_of_error failed) ready.spares expected
      | ok functions =>
          obtain ⟨failure, u, refused, sound, keeps⟩ :=
            Store.refuses_newRegistry ready.sound s.engine.level (other_of_not_all all made)
          have failed : ((makeRegistry (.offering offers)).outcome s).value =
              (.error failure, { s with store := u }) :=
            (value_bind_of_ok (value_ofFallible made)).trans (value_onStore refused)
          exact .of_error (value_bind_of_error failed) ⟨rfl, rfl, sound, keeps⟩ expected

theorem comes_newRegistry (slot : String) (kind : RegistryKind) :
    Comes s (.newRegistry slot kind) (s.step (.newRegistry slot kind)) := by
  cases kind with
  | offering offers => exact comes_newRegistry_offering ready slot offers
  | fresh => exact comes_newRegistry_of_made ready slot rfl rfl nofun
  | builtin => exact .of_ok (value_answerRegistry slot ready.sound.builtin) (.builtinRegistry slot) nofun

end

/-! ### Steps on other things -/

/-- The sessions differ in the engine and the expressions at most. -/
def Beside (s t : Session) : Prop := ∃ engine expressions, t = { s with engine, expressions }

/-- The action has to do with neither slots for objects nor the store. -/
abbrev Apart {α : Type} (x : Action α) : Prop := Within Beside x

theorem Beside.refl (s : Session) : Beside s s := ⟨s.engine, s.expressions, rfl⟩

namespace Apart

variable {α β : Type}

theorem bind {x : Action α} {f : α → Action β} (first : Apart x) (rest : ∀ a, Apart (f a)) :
    Apart (x >>= f) := by
  refine Within.bind (fun {s t u} before after => ?_) first rest
  obtain ⟨_, _, rfl⟩ := before
  obtain ⟨engine, expressions, rfl⟩ := after
  exact ⟨engine, expressions, rfl⟩

theorem pure (a : α) : Apart (Pure.pure a : Action α) := fun s => .refl s

theorem throw (failure : Failure) : Apart (MonadExcept.throw failure : Action α) :=
  fun s => .refl s

theorem ofFallible (result : Fallible α) : Apart (Stateful.ofFallible result : Action α) :=
  fun s => .refl s

theorem consult (use : Engine → Logged (Fallible α)) : Apart (Session.consult use) :=
  fun s => .refl s

theorem held (slots : Session → Table α) (slot : String) : Apart (Session.held slots slot) := by
  refine .bind (fun s => .refl s) fun s => ?_
  cases (slots s).get? slot <;> exact fun s => .refl s

theorem look {operation : Store.Operation α} (reads : Store.Reads operation) :
    Apart (onStore fun _ => operation) :=
  fun s => ⟨s.engine, s.expressions, congrArg (fun store => { s with store }) (reads s.store).symm⟩

theorem putExpression (slot : String) (e : Expr) : Apart (Session.putExpression slot e) :=
  fun s => ⟨s.engine, s.expressions.insert slot e, rfl⟩

theorem scopeContext (scope : Scope) : Apart (Session.scopeContext scope) := by
  cases scope with
  | none => exact pure none
  | slot name =>
      exact .bind (held contexts name) fun id => .bind (look (.context id)) fun c => pure (some c)
  | bindings b => exact .bind (ofFallible b.context) fun c => pure (some c)

theorem describeContext (id : Nat) : Apart (Session.describeContext id) :=
  .bind (look (.context id)) fun _ => pure _

theorem describeRegistry (id : Nat) : Apart (Session.describeRegistry id) :=
  .bind (look (.registry id)) fun _ => pure _

theorem putEngine (change : Engine → Fallible (Logged Engine)) : Apart (Session.putEngine change) :=
  .bind (consult _) fun engine s => ⟨engine, s.expressions, rfl⟩

theorem readInto (into : String) (source : Source) : Apart (Session.readInto into source) :=
  .bind (consult _) fun e => .bind (putExpression into e) fun _ => pure _

end Apart

theorem apart_perform (looks : action.looks = true) : Apart (perform action) := by
  cases action with
  | parse into text => exact .readInto into _
  | build into source => exact .readInto into source
  | buildOther | putOther => exact .throw _
  | evaluate slot scope =>
      exact .bind (.held _ slot) fun e => .bind (.scopeContext scope) fun c =>
        .bind (.consult _) fun _ => .pure _
  | differentiate slot x scope into =>
      exact .bind (.held _ slot) fun e => .bind (.scopeContext scope) fun c =>
        .bind (.ofFallible _) fun e => .bind (.putExpression into e) fun _ => .pure _
  | simplify slot into =>
      exact .bind (.held _ slot) fun e => .bind (.consult _) fun simplified =>
        .bind (.putExpression into simplified.1) fun _ => .pure _
  | inspect slot => exact .bind (.held _ slot) fun _ => .pure _
  | compare a b => exact .bind (.held _ a) fun _ => .bind (.held _ b) fun _ => .pure _
  | showContext slot => exact .bind (.held _ slot) .describeContext
  | showRegistry slot => exact .bind (.held _ slot) .describeRegistry
  | lookUpVariable slot name =>
      exact .bind (.held _ slot) fun id => .bind (.look (.variableValue id name)) fun _ => .pure _
  | findFunction slot name =>
      exact .bind (.held _ slot) fun id => .bind (.look (.findFunction id name)) fun _ => .pure _
  | resolveFunction slot name =>
      exact .bind (.held _ slot) fun id => .bind (.look (.resolve id name)) fun _ => .pure _
  | getFunction slot name =>
      exact .bind (.held _ slot) fun id => .bind (.look (.registry id)) fun _ => .pure _
  | showSettings => exact fun s => .refl s
  | putSettings changes =>
      exact .bind (fun s => .refl s) fun _ => .bind (.putEngine _) fun _ => .pure _
  | resetSettings | override | restore =>
      exact .bind (.putEngine _) fun _ => .bind (fun s => .refl s) fun _ => .pure _
  | configureLogger level | setLevel level =>
      exact fun s => ⟨s.engine.setLevel level, s.expressions, rfl⟩
  | log call text => exact .bind (.consult _) fun _ => .pure _
  | _ => cases looks

/-- What comes of a step in a session whose names stand for objects. -/
theorem comes (ready : s.Ready) (action : Step) : Comes s action (s.step action) := by
  cases looks : action.looks with
  | true =>
      obtain ⟨engine, expressions, same⟩ := apart_perform looks s
      have spares : s.Spares (s.step action).session := by
        rw [step, same]
        exact ⟨rfl, rfl, ready.sound, .refl _⟩
      have expected : succeeds? s.sight action = none := by
        cases action <;> first | rfl | cases looks
      cases answer : (s.step action).answer with
      | error failure => exact .fails answer spares (expected ▸ nofun)
      | ok a => exact .does answer (.looks looks spares) (expected ▸ nofun)
  | false =>
      cases action with
      | newContext slot bindings withBuiltins => exact comes_newContext ready slot bindings withBuiltins
      | emptyContext slot => exact comes_emptyContext ready slot
      | childContext slot into =>
          exact comes_copies ready .child rfl (Store.makesContext_child ready.sound)
      | rebuildContext slot into =>
          exact comes_copies ready .rebuild rfl (Store.makesContext_rebuild ready.sound)
      | shareContext slot into => exact comes_shareContext ready slot into
      | setVariable slot name number => exact comes_setVariable ready slot name number
      | define slot fields => exact comes_define ready slot fields
      | installBuiltins slot => exact comes_installBuiltins ready slot
      | installRegistry registry slot => exact comes_installRegistry ready registry slot
      | newRegistry slot kind => exact comes_newRegistry ready slot kind
      | shareRegistry slot into => exact comes_shareRegistry ready slot into
      | register slot offer => exact comes_register ready slot offer
      | freeze slot => exact comes_freeze ready slot
      | _ => cases looks

end Formula.Session
