import Formula.Proofs.Log
import Formula.Store

/-!
What operations on the store write to the log. The level decides which records are written and nothing
else. Only registrations are recorded.
-/

set_option autoImplicit false

namespace Formula.Store

open Stateful

variable {α β : Type} {general : Level} {warns : Prop}

/-- The level decides which records are written and nothing else. -/
def Logs (general : Level) (warns : Prop) (operation : Level → Operation α) : Prop :=
  ∀ s, ∃ reply written, Writes general warns written ∧
    ∀ level, (operation level).outcome s = ⟨reply, written level⟩

namespace Logs

theorem silent {operation : Operation α} (none : ∀ s, (operation.outcome s).records = []) :
    Logs general warns fun _ => operation := fun s =>
  ⟨_, _, .nothing, fun _ => congrArg (Logged.mk _) (none s)⟩

theorem bind {x : Level → Operation α} {f : Level → α → Operation β} (first : Logs general warns x)
    (rest : ∀ a, Logs general warns fun level => f level a) :
    Logs general warns fun level => x level >>= f level := by
  intro s
  obtain ⟨⟨result, t⟩, written, writes, same⟩ := first s
  cases result with
  | error failure =>
      exact ⟨(.error failure, t), written, writes, fun level => outcome_bind_of_error (same level)⟩
  | ok a =>
      obtain ⟨reply, more, writes', same'⟩ := rest a t
      refine ⟨reply, _, writes.append writes', fun level => ?_⟩
      rw [outcome_bind_of_ok (same level), same' level]

theorem pure (a : α) : Logs general warns fun _ => (Pure.pure a : Operation α) :=
  .silent fun _ => rfl

theorem throw (failure : Failure) :
    Logs general warns fun _ => (MonadExcept.throw failure : Operation α) :=
  .silent fun _ => rfl

theorem ofFallible (result : Fallible α) :
    Logs general warns fun _ => (Stateful.ofFallible result : Operation α) :=
  .silent fun _ => rfl

theorem change (f : Store → Store) : Logs general warns fun _ => (modify f : Operation Unit) :=
  .silent fun _ => rfl

theorem make (f : Store → α × Store) : Logs general warns fun _ => (modifyGet f : Operation α) :=
  .silent fun _ => rfl

theorem ask (look : Store → Option α) : Logs general warns fun _ => Store.ask look := by
  refine .bind (.silent fun _ => rfl) fun s => ?_
  cases look s with
  | none => exact throw _
  | some found => exact pure found

theorem context (id : Nat) : Logs general warns fun _ => Store.context id := ask _

theorem registry (id : Nat) : Logs general warns fun _ => Store.registry id := ask _

/-! ### Contexts -/

theorem newContext (values functions : Nat) :
    Logs general warns fun _ => Store.newContext values functions :=
  .bind (.bind (ask _) fun _ => make _) fun _ =>
    .bind (.bind (ask _) fun _ => make _) fun _ => make _

theorem rebuild (id : Nat) : Logs general warns fun _ => Store.rebuild id :=
  .bind (ask _) fun object => newContext object.values.place object.functions.place

theorem construct (c : Context) : Logs general warns fun _ => Store.construct c :=
  .bind (make _) fun values => .bind (make _) fun functions => newContext values functions

theorem child (id : Nat) : Logs general warns fun _ => Store.child id :=
  .bind (context id) construct

theorem setVariable (id : Nat) (name : String) (number : Number) :
    Logs general warns fun _ => Store.setVariable id name number := by
  refine .bind (ask _) fun object => .bind (ofFallible _) fun value => ?_
  cases object.values.isReadOnly with
  | true => exact throw _
  | false => exact change _

theorem define (id : Nat) (f : Function) : Logs general warns fun _ => Store.define id f := by
  refine .bind (ask _) fun object => ?_
  cases object.functions.isReadOnly with
  | true => exact throw _
  | false => exact change _

theorem install (registry id : Nat) : Logs general warns fun _ => Store.install registry id := by
  refine .bind (Logs.registry registry) fun offered => .bind (ask _) fun object => ?_
  cases object.functions.isReadOnly with
  | true => exact throw _
  | false => exact change _

theorem variableValue (id : Nat) (name : String) :
    Logs general warns fun _ => Store.variableValue id name :=
  .bind (context id) fun _ => ofFallible _

theorem findFunction (id : Nat) (name : String) :
    Logs general warns fun _ => Store.findFunction id name := by
  refine .bind (context id) fun c => ?_
  cases c.functions.get? name with
  | none => exact .bind (registry builtinRegistry) fun _ => pure _
  | some f => exact pure _

theorem resolve (id : Nat) (name : String) : Logs general warns fun _ => Store.resolve id name := by
  refine .bind (findFunction id name) fun found => ?_
  cases found with
  | none => exact throw _
  | some f => exact pure f

/-! ### Registries -/

theorem freeze (id : Nat) : Logs general warns fun _ => Store.freeze id := change _

theorem register (id : Nat) (offer : Option Function) :
    Logs .detailed warns fun level => Store.register level id offer := by
  refine .bind (ask _) fun object => ?_
  cases offer with
  | none => exact throw _
  | some f =>
      cases object.isFrozen with
      | true => exact throw _
      | false =>
          refine .bind (change _) fun _ s => ?_
          exact ⟨(.ok f, s), _, .info f.registration, fun _ => outcome_ofLogged _ s⟩

theorem registerAll (id : Nat) (offers : List (Option Function)) :
    Logs .detailed warns fun level => Store.registerAll level id offers := by
  induction offers with
  | nil => exact pure ()
  | cons offer rest ih => exact .bind (register id offer) fun _ => ih

theorem newRegistry (offers : List (Option Function)) :
    Logs .detailed warns fun level => Store.newRegistry level offers :=
  .bind (make _) fun _ => .bind (make _) fun id =>
    .bind (registerAll id offers) fun _ => pure id

end Logs

end Formula.Store
