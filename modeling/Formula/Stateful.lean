import Formula.Failure
import Formula.Log

/-!
Computations over a state that write records and may fail. A failure neither takes back what was
done to the state before it nor the records.
-/

set_option autoImplicit false

namespace Formula

abbrev Stateful (State : Type) := ExceptT Failure (StateT State Logged)

namespace Stateful

variable {State α β : Type}

/-- The result or the failure, the state that is reached, and the records. -/
def outcome (x : Stateful State α) (s : State) : Logged (Fallible α × State) :=
  StateT.run (ExceptT.run x) s

def ofFallible (result : Fallible α) : Stateful State α := ExceptT.mk (pure result)

def ofLogged (result : Logged (Fallible α)) : Stateful State α :=
  ExceptT.mk (StateT.lift result)

@[simp] theorem outcome_ofLogged (result : Logged (Fallible α)) (s : State) :
    (ofLogged result).outcome s = ⟨(result.value, s), result.records⟩ := by
  show Logged.mk _ (result.records ++ []) = _
  rw [List.append_nil]
  rfl

@[simp] theorem outcome_get (s : State) :
    outcome (get : Stateful State State) s = pure (.ok s, s) := rfl

@[simp] theorem outcome_modify (f : State → State) (s : State) :
    outcome (modify f : Stateful State Unit) s = pure (.ok (), f s) := rfl

theorem value_ofFallible {result answer : Fallible α} {s : State} (same : result = answer) :
    ((ofFallible result).outcome s).value = (answer, s) := same ▸ rfl

variable {x : Stateful State α} {f : α → Stateful State β} {s t : State}

theorem value_bind_of_ok {a : α} (done : (x.outcome s).value = (.ok a, t)) :
    (outcome (x >>= f) s).value = ((f a).outcome t).value := by
  show (ExceptT.bindCont f (x.outcome s).value.1 (x.outcome s).value.2).value = _
  rw [done]
  rfl

theorem value_bind_of_error {failure : Failure}
    (failed : (x.outcome s).value = (.error failure, t)) :
    (outcome (x >>= f) s).value = (.error failure, t) := by
  show (ExceptT.bindCont f (x.outcome s).value.1 (x.outcome s).value.2).value = _
  rw [failed]
  rfl

theorem outcome_bind_of_ok {a : α} {records : List Record}
    (done : x.outcome s = ⟨(.ok a, t), records⟩) :
    outcome (x >>= f) s =
      ⟨((f a).outcome t).value, records ++ ((f a).outcome t).records⟩ := by
  show Logged.mk (ExceptT.bindCont f (x.outcome s).value.1 (x.outcome s).value.2).value
    ((x.outcome s).records ++
      (ExceptT.bindCont f (x.outcome s).value.1 (x.outcome s).value.2).records) = _
  rw [done]
  rfl

theorem outcome_bind_of_error {failure : Failure} {records : List Record}
    (failed : x.outcome s = ⟨(.error failure, t), records⟩) :
    outcome (x >>= f) s = ⟨(.error failure, t), records⟩ := by
  show Logged.mk (ExceptT.bindCont f (x.outcome s).value.1 (x.outcome s).value.2).value
    ((x.outcome s).records ++
      (ExceptT.bindCont f (x.outcome s).value.1 (x.outcome s).value.2).records) = _
  rw [failed]
  exact congrArg (Logged.mk _) (List.append_nil records)

/-- Whatever comes of the computation, the state that is reached is related to that at the start. -/
def Within (related : State → State → Prop) (x : Stateful State α) : Prop :=
  ∀ s, related s (x.outcome s).value.2

theorem Within.bind {related : State → State → Prop}
    (trans : ∀ {s t u}, related s t → related t u → related s u) (first : Within related x)
    (rest : ∀ a, Within related (f a)) : Within related (x >>= f) := by
  intro s
  have reached := first s
  cases done : (x.outcome s).value with
  | mk result t =>
    rw [done] at reached
    cases result with
    | error failure =>
      rw [value_bind_of_error done]
      exact reached
    | ok a =>
      rw [value_bind_of_ok done]
      exact trans reached (rest a t)

end Stateful

end Formula
