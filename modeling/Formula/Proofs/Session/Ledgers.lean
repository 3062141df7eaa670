import Formula.Proofs.Session.Transitions

/-!
Histories of sessions. Which context or registry a slot names, what was written to it and whether it is
frozen can be read off the steps of a session and whether they succeeded. An object is known by the time
at which it was made, and has a ledger of what was written to it, the latest write first.
-/

set_option autoImplicit false

namespace Formula.Session

/-! ### Names -/

/-- A step that was taken, and whether it succeeded. -/
structure Event where
  step : Step
  succeeded : Bool

/-- The steps of a run and what became of them, the latest first. -/
def history (s : Session) (steps : List Step) : List Event :=
  ((steps.zip (s.run steps)).map fun (action, outcome) =>
    ⟨action, outcome.answer.isOk⟩).reverse

/-- Where an object is from: it was there from the start, or it was made at a time. -/
inductive Origin where
  | given
  | made (time : Nat)
  deriving DecidableEq

/-- What a step lets a slot name: a new object, the one that is there from the start, or that of another
slot. -/
inductive Naming where
  | new
  | given
  | same (other : String)

/-- The slot for contexts that a step fills. -/
def Step.contextNaming? : Step → Option (String × Naming)
  | .newContext slot .. => some (slot, .new)
  | .childContext _ into | .rebuildContext _ into => some (into, .new)
  | .emptyContext slot => some (slot, .given)
  | .shareContext slot into => some (into, .same slot)
  | _ => none

/-- The slot for registries that a step fills. -/
def Step.registryNaming? : Step → Option (String × Naming)
  | .newRegistry slot .builtin => some (slot, .given)
  | .newRegistry slot _ => some (slot, .new)
  | .shareRegistry slot into => some (into, .same slot)
  | _ => none

/-- The object that a slot names. -/
def originOf (naming? : Step → Option (String × Naming)) (slot : String) : List Event → Option Origin
  | [] => none
  | ⟨_, false⟩ :: earlier => originOf naming? slot earlier
  | ⟨action, true⟩ :: earlier =>
    match naming? action with
    | none => originOf naming? slot earlier
    | some (into, naming) =>
      if into = slot then
        match naming with
        | .new => some (.made earlier.length)
        | .given => some .given
        | .same other => originOf naming? other earlier
      else originOf naming? slot earlier

abbrev contextOf : String → List Event → Option Origin := originOf Step.contextNaming?

abbrev registryOf : String → List Event → Option Origin := originOf Step.registryNaming?

/-! ### Ledgers -/

def named (functions : List Function) : List (String × Function) :=
  functions.map fun f => (f.name, f)

/-- The built-in functions under their names, the last one first. -/
def builtins : List (String × Function) := (named Registry.stock).reverse

/-- The value that was decoded, or none if that failed. -/
def decoded {α : Type} (value : Fallible α) : List α := value.toOption.toList

/-- What a registry is made of, the last function first. -/
def RegistryKind.functions : RegistryKind → List (String × Function)
  | .offering offers => (named (offers.filterMap function?)).reverse
  | .fresh | .builtin => builtins

def Step.stocked : Step → List (String × Function)
  | .newRegistry _ kind => kind.functions
  | _ => []

/-- What a step registers in the registry of a slot. -/
def Step.registered? : Step → Option (String × List (String × Function))
  | .register slot offer => some (slot, named (function? offer).toList)
  | _ => none

/-- What was registered in a registry since it was made, the latest first. -/
def registrations (o : Origin) : List Event → List (String × Function)
  | [] => if o = .given then builtins else []
  | ⟨_, false⟩ :: earlier => registrations o earlier
  | ⟨action, true⟩ :: earlier =>
    if o = .made earlier.length then action.stocked
    else
      match action.registered? with
      | some (slot, written) =>
        if registryOf slot earlier = some o then written ++ registrations o earlier
        else registrations o earlier
      | none => registrations o earlier

def Step.frozen? : Step → Option String
  | .freeze slot => some slot
  | _ => none

/-- A registry was frozen, or was so from the start. -/
def isFrozen (o : Origin) : List Event → Bool
  | [] => o = .given
  | ⟨_, false⟩ :: earlier => isFrozen o earlier
  | ⟨action, true⟩ :: earlier =>
    match action.frozen? with
    | some slot => registryOf slot earlier = some o || isFrozen o earlier
    | none => isFrozen o earlier

/-- What was written to a context, the latest first. -/
structure Ledger where
  values : List (String × Float) := []
  functions : List (String × Function) := []

/-- Later values and functions come first. -/
def Ledger.before (later earlier : Ledger) : Ledger :=
  ⟨later.values ++ earlier.values, later.functions ++ earlier.functions⟩

def Ledger.function? (l : Ledger) (name : String) : Option Function :=
  (l.functions.lookup name).or ((Builtin.ofName? name).map Builtin.definition)

/-- What a new context has from its bindings. -/
def ledgerOf (b : Bindings) (withBuiltins : Bool) : Ledger where
  values := (decoded (Bindings.checked Number.toDouble b.values)).flatten.reverse
  functions := (if withBuiltins then builtins else []) ++
    (decoded (Bindings.checked Definition.ofFields b.functions)).flatten.reverse

def Step.bound : Step → Ledger
  | .newContext _ bindings withBuiltins => ledgerOf bindings withBuiltins
  | _ => {}

/-- The slot whose context a step copies. -/
def Step.parent? : Step → Option String
  | .childContext parent _ | .rebuildContext parent _ => some parent
  | _ => none

/-- What a step writes to the context of a slot, after an earlier history. -/
def Step.written? (earlier : List Event) : Step → Option (String × Ledger)
  | .setVariable slot name number => some (slot, ⟨(decoded number.toDouble).map (name, ·), []⟩)
  | .define slot fields => some (slot, ⟨[], named (decoded (Definition.ofFields fields))⟩)
  | .installBuiltins slot => some (slot, ⟨[], builtins⟩)
  | .installRegistry registry slot =>
    some (slot, ⟨[], (registryOf registry earlier).elim [] (registrations · earlier)⟩)
  | _ => none

/-- What was written to a context since it was made, or to what it is a snapshot of before. -/
def ledger (o : Origin) : List Event → Ledger
  | [] => {}
  | ⟨_, false⟩ :: earlier => ledger o earlier
  | ⟨action, true⟩ :: earlier =>
    if o = .made earlier.length then
      match action.parent?.bind (contextOf · earlier) with
      | some parent => ledger parent earlier
      | none => action.bound
    else
      match action.written? earlier with
      | some (slot, written) =>
        if contextOf slot earlier = some o then written.before (ledger o earlier)
        else ledger o earlier
      | none => ledger o earlier

/-- What the history lets a step see. -/
def sightOf (h : List Event) : Sight where
  writable? slot := (contextOf slot h).map fun o => decide (o ≠ .given)
  open? slot := (registryOf slot h).map fun o => !isFrozen o h

theorem length_run (s : Session) (steps : List Step) : (s.run steps).length = steps.length := by
  induction steps generalizing s with
  | nil => rfl
  | cons action rest ih => rw [run, List.length_cons, ih, List.length_cons]

theorem history_append_step (s : Session) (steps : List Step) (action : Step) :
    s.history (steps ++ [action]) =
      ⟨action, ((s.after steps).step action).answer.isOk⟩ :: s.history steps := by
  rw [history, run_append, List.zip_append (length_run s steps).symm, List.map_append,
    List.reverse_append]
  rfl

/-! ### Names and objects -/

/-- Slots name ids in the session and origins in its history. An id stands for an origin if a slot has
both, and the object that is there from the start has an id of its own. -/
inductive Stands (ids : String → Option Nat) (origins : String → Option Origin) (start : Nat) :
    Nat → Origin → Prop
  | given : Stands ids origins start start .given
  | slot {slot : String} {id : Nat} {o : Origin} (named : ids slot = some id)
      (origin : origins slot = some o) : Stands ids origins start id o

/-- The same slots name objects in the session and in its history, ids stand for origins one to one, and
what an object has is as its origin says. -/
structure Matches (ids : String → Option Nat) (origins : String → Option Origin) (start : Nat)
    (holds : Nat → Origin → Prop) : Prop where
  named : ∀ slot, (ids slot).isSome = (origins slot).isSome
  same : ∀ {id other o o'}, Stands ids origins start id o → Stands ids origins start other o' →
    (id = other ↔ o = o')
  holds : ∀ {id o}, Stands ids origins start id o → holds id o

namespace Matches

variable {ids : String → Option Nat} {origins : String → Option Origin} {start : Nat}
  {holds holds' : Nat → Origin → Prop}

/-- At the start no slot names anything. -/
theorem initial {slots : Table Nat} {naming? : Step → Option (String × Naming)}
    (unnamed : ∀ slot, slots.get? slot = none) (given : holds start .given) :
    Matches slots.get? (originOf naming? · []) start holds := by
  have only {id : Nat} {o : Origin} (stands : Stands slots.get? (originOf naming? · []) start id o) :
      id = start ∧ o = .given := by
    cases stands with
    | given => exact ⟨rfl, rfl⟩
    | slot _ origin => cases origin
  refine ⟨fun slot => ?_, fun stands stands' => ?_, fun stands => ?_⟩
  · rw [unnamed slot]
    rfl
  · obtain ⟨rfl, rfl⟩ := only stands
    obtain ⟨rfl, rfl⟩ := only stands'
    exact iff_of_true rfl rfl
  · obtain ⟨rfl, rfl⟩ := only stands
    exact given

theorem mono (fits : Matches ids origins start holds)
    (kept : ∀ {id o}, Stands ids origins start id o → holds id o → holds' id o) :
    Matches ids origins start holds' :=
  ⟨fits.named, fits.same, fun stands => kept stands (fits.holds stands)⟩

theorem origin_of_named (fits : Matches ids origins start holds) {slot : String} {id : Nat}
    (found : ids slot = some id) : ∃ o, origins slot = some o ∧ Stands ids origins start id o := by
  have some := fits.named slot
  rw [found, Option.isSome_some] at some
  obtain ⟨o, origin⟩ := Option.isSome_iff_exists.1 some.symm
  exact ⟨o, origin, .slot found origin⟩

theorem origin_of_absent (fits : Matches ids origins start holds) {slot : String}
    (absent : ids slot = none) : origins slot = none := by
  have none := fits.named slot
  rw [absent, Option.isSome_none] at none
  exact Option.not_isSome_iff_eq_none.1 (none ▸ nofun)

theorem fill (fits : Matches ids origins start holds) {slot : String} {id : Nat} {o : Origin}
    {ids' : String → Option Nat} {origins' : String → Option Origin}
    (apart : ∀ {other o'}, Stands ids origins start other o' → (other = id ↔ o' = o))
    (filled : ∀ other, ids' other = if slot = other then some id else ids other)
    (filled' : ∀ other, origins' other = if slot = other then some o else origins other)
    (new : holds id o) : Matches ids' origins' start holds := by
  have cases {other : Nat} {o' : Origin} (stands : Stands ids' origins' start other o') :
      other = id ∧ o' = o ∨ Stands ids origins start other o' := by
    cases stands with
    | given => exact .inr .given
    | slot named origin =>
        rw [filled] at named
        rw [filled'] at origin
        split at named
        · next same =>
            rw [if_pos same] at origin
            exact .inl ⟨(Option.some.inj named).symm, (Option.some.inj origin).symm⟩
        · next other =>
            rw [if_neg other] at origin
            exact .inr (.slot named origin)
  refine ⟨fun other => ?_, fun stands stands' => ?_, fun stands => ?_⟩
  · rw [filled, filled']
    split
    · rfl
    · exact fits.named other
  · obtain ⟨rfl, rfl⟩ | old := cases stands <;> obtain ⟨rfl, rfl⟩ | old' := cases stands'
    · exact iff_of_true rfl rfl
    · exact ⟨fun same => ((apart old').1 same.symm).symm, fun same => ((apart old').2 same.symm).symm⟩
    · exact apart old
    · exact fits.same old old'
  · obtain ⟨rfl, rfl⟩ | old := cases stands
    · exact new
    · exact fits.holds old

end Matches

/-! ### One more event -/

section

variable {h : List Event} {action : Step} {slot : String} {id time : Nat} {o : Origin}
  {naming? : Step → Option (String × Naming)}

/-- What a slot names was made before. -/
theorem lt_of_originOf (origin : originOf naming? slot h = some (.made time)) : time < h.length := by
  induction h generalizing slot with
  | nil => cases origin
  | cons e earlier ih =>
      obtain ⟨action, succeeded⟩ := e
      rw [List.length_cons]
      cases succeeded with
      | false => exact Nat.lt_succ_of_lt (ih origin)
      | true =>
          rw [originOf] at origin
          split at origin
          · exact Nat.lt_succ_of_lt (ih origin)
          · next into naming _ =>
              split at origin
              · cases naming with
                | new =>
                    cases origin
                    exact Nat.lt_succ_self _
                | given => cases origin
                | same other => exact Nat.lt_succ_of_lt (ih origin)
              · exact Nat.lt_succ_of_lt (ih origin)

theorem Stands.old {ids : String → Option Nat} {start : Nat}
    (stands : Stands ids (originOf naming? · h) start id o) : o ≠ .made h.length := by
  cases stands with
  | given => nofun
  | slot _ origin =>
      rintro rfl
      exact Nat.lt_irrefl _ (lt_of_originOf origin)

theorem isFrozen_new (le : h.length ≤ time) : isFrozen (.made time) h = false := by
  induction h with
  | nil => rfl
  | cons e earlier ih =>
      obtain ⟨action, succeeded⟩ := e
      have le' : earlier.length ≤ time := Nat.le_of_succ_le le
      cases succeeded with
      | false => exact ih le'
      | true =>
          rw [isFrozen]
          split
          · next slot _ =>
              rw [ih le', Bool.or_false, decide_eq_false_iff_not]
              exact fun named => Nat.not_lt.2 le' (lt_of_originOf named)
          · exact ih le'

theorem originOf_unnamed (none : naming? action = none) :
    originOf naming? slot (⟨action, true⟩ :: h) = originOf naming? slot h := by
  rw [originOf, none]

theorem originOf_new {into : String} (new : naming? action = some (into, .new)) (slot : String) :
    originOf naming? slot (⟨action, true⟩ :: h) =
      if into = slot then some (.made h.length) else originOf naming? slot h := by
  rw [originOf, new]

theorem originOf_given {into : String} (given : naming? action = some (into, .given))
    (slot : String) :
    originOf naming? slot (⟨action, true⟩ :: h) =
      if into = slot then some .given else originOf naming? slot h := by
  rw [originOf, given]

theorem originOf_same {into other : String} (same : naming? action = some (into, .same other))
    (slot : String) :
    originOf naming? slot (⟨action, true⟩ :: h) =
      if into = slot then originOf naming? other h else originOf naming? slot h := by
  rw [originOf, same]

theorem ledger_kept (old : o ≠ .made h.length) (none : action.written? h = none) :
    ledger o (⟨action, true⟩ :: h) = ledger o h := by
  rw [ledger, if_neg old, none]

theorem ledger_written {written : Ledger} (old : o ≠ .made h.length)
    (writes : action.written? h = some (slot, written)) :
    ledger o (⟨action, true⟩ :: h) =
      if contextOf slot h = some o then written.before (ledger o h) else ledger o h := by
  rw [ledger, if_neg old, writes]

theorem registrations_kept (old : o ≠ .made h.length) (none : action.registered? = none) :
    registrations o (⟨action, true⟩ :: h) = registrations o h := by
  rw [registrations, if_neg old, none]

theorem registrations_registered {written : List (String × Function)} (old : o ≠ .made h.length)
    (registers : action.registered? = some (slot, written)) :
    registrations o (⟨action, true⟩ :: h) =
      if registryOf slot h = some o then written ++ registrations o h else registrations o h := by
  rw [registrations, if_neg old, registers]

theorem isFrozen_kept (none : action.frozen? = none) :
    isFrozen o (⟨action, true⟩ :: h) = isFrozen o h := by
  rw [isFrozen, none]

theorem isFrozen_frozen (freezes : action.frozen? = some slot) :
    isFrozen o (⟨action, true⟩ :: h) = (registryOf slot h = some o || isFrozen o h) := by
  rw [isFrozen, freezes]

/-! ### Slots after a step -/

namespace Matches

variable {slots : Table Nat} {start : Nat} {holds holds' : Nat → Origin → Prop}
  (fits : Matches slots.get? (originOf naming? · h) start holds)

include fits

/-- A step that fills no slot. -/
theorem unnamed (none : naming? action = none)
    (kept : ∀ {id o}, o ≠ .made h.length → holds id o → holds' id o) :
    Matches slots.get? (originOf naming? · (⟨action, true⟩ :: h)) start holds' := by
  have same : (originOf naming? · (⟨action, true⟩ :: h)) = (originOf naming? · h) :=
    funext fun slot => originOf_unnamed none
  rw [same]
  exact fits.mono fun stands has => kept stands.old has

/-- A step that writes to the object of a slot. -/
theorem written (none : naming? action = none) (found : slots.get? slot = some id)
    (this : ∀ {o}, originOf naming? slot h = some o → o ≠ .made h.length → holds id o →
      holds' id o)
    (others : ∀ {other o}, other ≠ id → originOf naming? slot h ≠ some o → o ≠ .made h.length →
      holds other o → holds' other o) :
    Matches slots.get? (originOf naming? · (⟨action, true⟩ :: h)) start holds' := by
  have same : (originOf naming? · (⟨action, true⟩ :: h)) = (originOf naming? · h) :=
    funext fun slot => originOf_unnamed none
  obtain ⟨o, origin, stands⟩ := fits.origin_of_named found
  rw [same]
  refine fits.mono fun {other o'} stands' has => ?_
  by_cases again : other = id
  · subst again
    obtain rfl := (fits.same stands' stands).1 rfl
    exact this origin stands'.old has
  · refine others again (fun origin' => again ?_) stands'.old has
    exact (fits.same stands' stands).2 (Option.some.inj (origin'.symm.trans origin))

variable (kept : ∀ {id o}, o ≠ .made h.length → holds id o → holds' id o)

include kept

/-- A step that makes an object. -/
theorem filled_new (new : naming? action = some (slot, .new)) (fresh : ∀ {o}, ¬ holds id o)
    (made : holds' id (.made h.length)) :
    Matches (slots.insert slot id).get? (originOf naming? · (⟨action, true⟩ :: h)) start holds' := by
  refine (fits.mono fun stands => kept stands.old).fill (fun {other o'} stands => ?_)
    (Table.get?_insert _ slot · id) (originOf_new new) made
  refine iff_of_false ?_ stands.old
  rintro rfl
  exact fresh (fits.holds stands)

/-- A step that names the object that was there from the start. -/
theorem filled_given (given : naming? action = some (slot, .given)) :
    Matches (slots.insert slot start).get? (originOf naming? · (⟨action, true⟩ :: h)) start
      holds' :=
  (fits.mono fun stands => kept stands.old).fill (fun stands => fits.same stands .given)
    (Table.get?_insert _ slot · start) (originOf_given given) (kept nofun (fits.holds .given))

/-- A step that names the object of another slot. -/
theorem filled_same {other : String} (same : naming? action = some (slot, .same other))
    (found : slots.get? other = some id) :
    Matches (slots.insert slot id).get? (originOf naming? · (⟨action, true⟩ :: h)) start holds' := by
  obtain ⟨o, origin, stands⟩ := fits.origin_of_named found
  refine (fits.mono fun stands => kept stands.old).fill (fun stands' => fits.same stands' stands)
    (Table.get?_insert _ slot · id) (fun asked => ?_) (kept stands.old (fits.holds stands))
  rw [originOf_same same, origin]

end Matches

end

end Formula.Session
