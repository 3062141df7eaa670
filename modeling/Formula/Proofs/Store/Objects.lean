import Formula.Store

/-!
Objects and their tables. In a store every table that an object writes to belongs to that object alone,
so that a write changes what one object holds and nothing else, and a new table or object changes
nothing that was there.
-/

set_option autoImplicit false

namespace Formula.Store

/-- The objects that have functions. -/
inductive Owner where
  | context (id : Nat)
  | registry (id : Nat)
  deriving DecidableEq

variable {s t u : Store} {id place : Nat} {c c' : Context} {r r' : Registry}

def valuesOf? (s : Store) (id : Nat) : Option Nat :=
  s.contexts[id]?.map fun object => object.values.place

def functionsOf? (s : Store) : Owner → Option Nat
  | .context id => s.contexts[id]?.map fun object => object.functions.place
  | .registry id => s.registries[id]?.map RegistryObject.functions

/-- A context is read-only exactly if it is the empty one. -/
def LocksEmpty (s : Store) : Prop :=
  ∀ id object, s.contexts[id]? = some object →
    (object.values.isReadOnly = true ↔ id = emptyContext) ∧
      (object.functions.isReadOnly = true ↔ id = emptyContext)

/-- No place belongs to two owners. -/
def Own {κ : Type} (places : κ → Option Nat) : Prop :=
  ∀ ⦃owner other place⦄, places owner = some place → places other = some place → owner = other

/-- Objects have tables of their own. -/
structure Separate (s : Store) : Prop where
  values_lt : ∀ {id place}, s.valuesOf? id = some place → place < s.values.size
  functions_lt : ∀ {owner place}, s.functionsOf? owner = some place → place < s.functions.size
  values_own : Own s.valuesOf?
  functions_own : Own s.functionsOf?
  locks : s.LocksEmpty

theorem contextAt?_eq_some :
    s.contextAt? id = some c ↔ ∃ object, s.contexts[id]? = some object ∧
      s.values[object.values.place]? = some c.values ∧
        s.functions[object.functions.place]? = some c.functions := by
  obtain ⟨values, functions⟩ := c
  simp [contextAt?, Option.bind_eq_some_iff]

theorem registryAt?_eq_some :
    s.registryAt? id = some r ↔ ∃ object, s.registries[id]? = some object ∧
      s.functions[object.functions]? = some r.functions ∧ object.isFrozen = r.isFrozen := by
  obtain ⟨functions, isFrozen⟩ := r
  simp only [registryAt?, Option.bind_eq_bind, Option.bind_eq_some_iff, Option.pure_def,
    Option.some.injEq, Registry.mk.injEq]
  exact exists_congr fun object => and_congr_right fun _ =>
    ⟨fun ⟨_, found, same, frozen⟩ => ⟨same ▸ found, frozen⟩,
      fun ⟨found, frozen⟩ => ⟨_, found, rfl, frozen⟩⟩

theorem getElem?_push_of_some {α : Type} {a : Array α} {x : α} (y : α) {i : Nat}
    (held : a[i]? = some x) : (a.push y)[i]? = some x := by
  have within := (Array.getElem?_eq_some_iff.1 held).1
  rw [Array.getElem?_push_lt within, ← held, Array.getElem?_eq_getElem within]

/-! ### What is kept -/

/-- What objects hold stays. There may be more of them. -/
structure Keeps (s t : Store) : Prop where
  contexts : ∀ {id c}, s.contextAt? id = some c → t.contextAt? id = some c
  registries : ∀ {id r}, s.registryAt? id = some r → t.registryAt? id = some r

namespace Keeps

theorem refl (s : Store) : s.Keeps s := ⟨id, id⟩

theorem trans (first : s.Keeps t) (later : t.Keeps u) : s.Keeps u :=
  ⟨fun held => later.contexts (first.contexts held),
    fun held => later.registries (first.registries held)⟩

theorem pushValues (s : Store) (values : Table Float) : s.Keeps (s.pushValues values) := by
  refine ⟨fun held => ?_, id⟩
  obtain ⟨object, found, values, functions⟩ := contextAt?_eq_some.1 held
  exact contextAt?_eq_some.2 ⟨object, found, getElem?_push_of_some _ values, functions⟩

theorem pushFunctions (s : Store) (functions : Table Function) :
    s.Keeps (s.pushFunctions functions) := by
  refine ⟨fun held => ?_, fun held => ?_⟩
  · obtain ⟨object, found, values, functions⟩ := contextAt?_eq_some.1 held
    exact contextAt?_eq_some.2 ⟨object, found, values, getElem?_push_of_some _ functions⟩
  · obtain ⟨object, found, functions, frozen⟩ := registryAt?_eq_some.1 held
    exact registryAt?_eq_some.2 ⟨object, found, getElem?_push_of_some _ functions, frozen⟩

theorem pushContext (s : Store) (object : ContextObject) : s.Keeps (s.pushContext object) := by
  refine ⟨fun held => ?_, id⟩
  obtain ⟨object, found, values, functions⟩ := contextAt?_eq_some.1 held
  exact contextAt?_eq_some.2 ⟨object, getElem?_push_of_some _ found, values, functions⟩

theorem pushRegistry (s : Store) (object : RegistryObject) : s.Keeps (s.pushRegistry object) := by
  refine ⟨id, fun held => ?_⟩
  obtain ⟨object, found, functions, frozen⟩ := registryAt?_eq_some.1 held
  exact registryAt?_eq_some.2 ⟨object, getElem?_push_of_some _ found, functions, frozen⟩

end Keeps

/-- One context, which may be new, holds something, and nothing else changes. -/
structure PutsContext (s t : Store) (id : Nat) (c : Context) : Prop where
  put : t.contextAt? id = some c
  others : ∀ {other held}, other ≠ id → s.contextAt? other = some held →
    t.contextAt? other = some held
  registries : ∀ {other held}, s.registryAt? other = some held → t.registryAt? other = some held

/-- One registry, which may be new, has something, and nothing else changes. -/
structure PutsRegistry (s t : Store) (id : Nat) (r : Registry) : Prop where
  put : t.registryAt? id = some r
  others : ∀ {other held}, other ≠ id → s.registryAt? other = some held →
    t.registryAt? other = some held
  contexts : ∀ {other held}, s.contextAt? other = some held → t.contextAt? other = some held

namespace PutsContext

theorem of_keeps (keeps : s.Keeps t) (puts : t.PutsContext u id c) : s.PutsContext u id c :=
  ⟨puts.put, fun other held => puts.others other (keeps.contexts held),
    fun held => puts.registries (keeps.registries held)⟩

theorem trans (first : s.PutsContext t id c) (later : t.PutsContext u id c') :
    s.PutsContext u id c' :=
  ⟨later.put, fun other held => later.others other (first.others other held),
    fun held => later.registries (first.registries held)⟩

/-- A context that was not there before can hold anything while what was there stays. -/
theorem keeps (absent : s.contextAt? id = none) (puts : s.PutsContext t id c) : s.Keeps t := by
  refine ⟨fun {other held} found => puts.others ?_ found, puts.registries⟩
  rintro rfl
  cases absent.symm.trans found

end PutsContext

namespace PutsRegistry

theorem of_keeps (keeps : s.Keeps t) (puts : t.PutsRegistry u id r) : s.PutsRegistry u id r :=
  ⟨puts.put, fun other held => puts.others other (keeps.registries held),
    fun held => puts.contexts (keeps.contexts held)⟩

theorem refl (held : s.registryAt? id = some r) : s.PutsRegistry s id r :=
  ⟨held, fun _ held => held, fun held => held⟩

theorem trans (first : s.PutsRegistry t id r) (later : t.PutsRegistry u id r') :
    s.PutsRegistry u id r' :=
  ⟨later.put, fun other held => later.others other (first.others other held),
    fun held => later.contexts (first.contexts held)⟩

/-- A registry that was not there before can be changed while what was there stays. -/
theorem keeps (absent : s.registryAt? id = none) (puts : s.PutsRegistry t id r) : s.Keeps t := by
  refine ⟨puts.contexts, fun {other held} found => puts.others ?_ found⟩
  rintro rfl
  cases absent.symm.trans found

end PutsRegistry

/-! ### Tables of their own -/

theorem Own.insert {κ : Type} [DecidableEq κ] {places others : κ → Option Nat} (own : Own places)
    {new : κ} (unowned : ∀ owner, places owner ≠ some place)
    (inserted : ∀ owner, others owner = if owner = new then some place else places owner) :
    Own others := by
  intro owner other place found again
  rw [inserted] at found again
  split at found <;> split at again
  · next same same' => exact same.trans same'.symm
  · exact absurd (again.trans found.symm) (unowned other)
  · exact absurd (found.trans again.symm) (unowned owner)
  · exact own found again

theorem valuesOf?_pushContext (s : Store) (object : ContextObject) (id : Nat) :
    (s.pushContext object).valuesOf? id =
      if id = s.contexts.size then some object.values.place else s.valuesOf? id := by
  rw [valuesOf?, pushContext, Array.getElem?_push]
  split <;> rfl

theorem functionsOf?_pushContext (s : Store) (object : ContextObject) (owner : Owner) :
    (s.pushContext object).functionsOf? owner =
      if owner = .context s.contexts.size then some object.functions.place
      else s.functionsOf? owner := by
  cases owner with
  | context id =>
      simp only [functionsOf?, pushContext, Array.getElem?_push, Owner.context.injEq]
      split <;> rfl
  | registry id => rfl

theorem functionsOf?_pushRegistry (s : Store) (object : RegistryObject) (owner : Owner) :
    (s.pushRegistry object).functionsOf? owner =
      if owner = .registry s.registries.size then some object.functions
      else s.functionsOf? owner := by
  cases owner with
  | context id => rfl
  | registry id =>
      simp only [functionsOf?, pushRegistry, Array.getElem?_push, Owner.registry.injEq]
      split <;> rfl

theorem functionsOf?_setFrozen (s : Store) (id : Nat) (owner : Owner) :
    (s.setFrozen id).functionsOf? owner = s.functionsOf? owner := by
  cases owner with
  | context other => rfl
  | registry other =>
      simp only [functionsOf?, setFrozen, Array.getElem?_modify]
      split
      · cases s.registries[other]? <;> rfl
      · rfl

namespace Separate

variable (separate : s.Separate)

include separate

/-- Where objects refer to the same tables, there may be more tables. -/
theorem of_same (values : t.valuesOf? = s.valuesOf?) (functions : t.functionsOf? = s.functionsOf?)
    (locks : t.LocksEmpty) (moreValues : s.values.size ≤ t.values.size)
    (moreFunctions : s.functions.size ≤ t.functions.size) : t.Separate where
  values_lt found := Nat.lt_of_lt_of_le (separate.values_lt (values ▸ found)) moreValues
  functions_lt found := Nat.lt_of_lt_of_le (separate.functions_lt (functions ▸ found)) moreFunctions
  values_own := values ▸ separate.values_own
  functions_own := functions ▸ separate.functions_own
  locks := locks

theorem pushValues (values : Table Float) : (s.pushValues values).Separate :=
  separate.of_same rfl rfl separate.locks
    (by rw [Store.pushValues, Array.size_push]; exact Nat.le_succ _) (Nat.le_refl _)

theorem pushFunctions (functions : Table Function) : (s.pushFunctions functions).Separate :=
  separate.of_same rfl rfl separate.locks (Nat.le_refl _)
    (by rw [Store.pushFunctions, Array.size_push]; exact Nat.le_succ _)

theorem changeValues (place : Nat) (change : Table Float → Table Float) :
    (s.changeValues place change).Separate :=
  separate.of_same rfl rfl separate.locks (Array.size_modify ▸ Nat.le_refl _) (Nat.le_refl _)

theorem changeFunctions (place : Nat) (change : Table Function → Table Function) :
    (s.changeFunctions place change).Separate :=
  separate.of_same rfl rfl separate.locks (Nat.le_refl _) (Array.size_modify ▸ Nat.le_refl _)

theorem setFrozen (id : Nat) : (s.setFrozen id).Separate :=
  separate.of_same rfl (funext (functionsOf?_setFrozen s id)) separate.locks (Nat.le_refl _)
    (Nat.le_refl _)

/-- A context whose tables are nobody's else. -/
theorem pushContext {values functions : Nat} (stocked : s.contexts.size ≠ emptyContext)
    (valuesLt : values < s.values.size) (functionsLt : functions < s.functions.size)
    (freeValues : ∀ id, s.valuesOf? id ≠ some values)
    (freeFunctions : ∀ owner, s.functionsOf? owner ≠ some functions) :
    (s.pushContext ⟨⟨values, false⟩, ⟨functions, false⟩⟩).Separate where
  values_lt found := by
    rw [valuesOf?_pushContext] at found
    split at found
    · cases found
      exact valuesLt
    · exact separate.values_lt found
  functions_lt found := by
    rw [functionsOf?_pushContext] at found
    split at found
    · cases found
      exact functionsLt
    · exact separate.functions_lt found
  values_own := separate.values_own.insert freeValues (valuesOf?_pushContext s _)
  functions_own := separate.functions_own.insert freeFunctions (functionsOf?_pushContext s _)
  locks id object found := by
    rw [Store.pushContext, Array.getElem?_push] at found
    split at found
    · next same =>
        cases found
        subst same
        exact ⟨⟨nofun, fun same => absurd same stocked⟩, ⟨nofun, fun same => absurd same stocked⟩⟩
    · exact separate.locks id object found

theorem pushRegistry {functions : Nat} (functionsLt : functions < s.functions.size)
    (freeFunctions : ∀ owner, s.functionsOf? owner ≠ some functions) :
    (s.pushRegistry ⟨functions, false⟩).Separate where
  values_lt := separate.values_lt
  functions_lt found := by
    rw [functionsOf?_pushRegistry] at found
    split at found
    · cases found
      exact functionsLt
    · exact separate.functions_lt found
  values_own := separate.values_own
  functions_own := separate.functions_own.insert freeFunctions (functionsOf?_pushRegistry s _)
  locks := separate.locks

end Separate

/-! ### Writes -/

section

variable {object : ContextObject} {registered : RegistryObject}

theorem functionsOf?_context (found : s.contexts[id]? = some object) :
    s.functionsOf? (.context id) = some object.functions.place := by
  rw [functionsOf?, found]
  rfl

theorem functionsOf?_registry (found : s.registries[id]? = some registered) :
    s.functionsOf? (.registry id) = some registered.functions := by
  rw [functionsOf?, found]
  rfl

/-- A write to the functions of one owner is not seen in those of another one. -/
theorem functions_changed_elsewhere (separate : s.Separate) {owner other : Owner} {place there : Nat}
    (owned : s.functionsOf? owner = some place) (owned' : s.functionsOf? other = some there)
    (apart : other ≠ owner) (change : Table Function → Table Function) :
    (s.changeFunctions place change).functions[there]? = s.functions[there]? := by
  rw [changeFunctions, Array.getElem?_modify, if_neg]
  rintro rfl
  exact apart (separate.functions_own owned' owned)

theorem functions_changed (s : Store) (place : Nat) (change : Table Function → Table Function)
    {functions : Table Function} (held : s.functions[place]? = some functions) :
    (s.changeFunctions place change).functions[place]? = some (change functions) := by
  rw [changeFunctions, Array.getElem?_modify, if_pos rfl, held]
  rfl

theorem putsContext_changeValues (separate : s.Separate) (found : s.contexts[id]? = some object)
    (held : s.contextAt? id = some c) (change : Table Float → Table Float) :
    s.PutsContext (s.changeValues object.values.place change) id ⟨change c.values, c.functions⟩ := by
  have owned : s.valuesOf? id = some object.values.place := by rw [valuesOf?, found]; rfl
  refine ⟨?_, fun {other there} apart inside => ?_, fun held => held⟩
  · obtain ⟨same, found', values, functions⟩ := contextAt?_eq_some.1 held
    cases found.symm.trans found'
    refine contextAt?_eq_some.2 ⟨object, found, ?_, functions⟩
    rw [changeValues, Array.getElem?_modify, if_pos rfl, values]
    rfl
  · obtain ⟨object', found', values, functions⟩ := contextAt?_eq_some.1 inside
    have owned' : s.valuesOf? other = some object'.values.place := by rw [valuesOf?, found']; rfl
    refine contextAt?_eq_some.2 ⟨object', found', ?_, functions⟩
    rw [changeValues, Array.getElem?_modify, if_neg, values]
    intro shared
    exact apart (separate.values_own owned' (shared ▸ owned))

theorem putsContext_changeFunctions (separate : s.Separate) (found : s.contexts[id]? = some object)
    (held : s.contextAt? id = some c) (change : Table Function → Table Function) :
    s.PutsContext (s.changeFunctions object.functions.place change) id
      ⟨c.values, change c.functions⟩ := by
  have owned := functionsOf?_context found
  refine ⟨?_, fun {other there} apart inside => ?_, fun {other there} inside => ?_⟩
  · obtain ⟨same, found', values, functions⟩ := contextAt?_eq_some.1 held
    cases found.symm.trans found'
    exact contextAt?_eq_some.2 ⟨object, found, values, functions_changed s _ change functions⟩
  · obtain ⟨object', found', values, functions⟩ := contextAt?_eq_some.1 inside
    refine contextAt?_eq_some.2 ⟨object', found', values, ?_⟩
    rw [functions_changed_elsewhere separate owned (functionsOf?_context found'), functions]
    exact fun same => apart (Owner.context.inj same)
  · obtain ⟨object', found', functions, frozen⟩ := registryAt?_eq_some.1 inside
    refine registryAt?_eq_some.2 ⟨object', found', ?_, frozen⟩
    rw [functions_changed_elsewhere separate owned (functionsOf?_registry found') nofun, functions]

theorem putsRegistry_changeFunctions (separate : s.Separate)
    (found : s.registries[id]? = some registered) (held : s.registryAt? id = some r)
    (change : Table Function → Table Function) :
    s.PutsRegistry (s.changeFunctions registered.functions change) id
      ⟨change r.functions, r.isFrozen⟩ := by
  have owned := functionsOf?_registry found
  refine ⟨?_, fun {other there} apart inside => ?_, fun {other there} inside => ?_⟩
  · obtain ⟨same, found', functions, frozen⟩ := registryAt?_eq_some.1 held
    cases found.symm.trans found'
    exact registryAt?_eq_some.2 ⟨registered, found, functions_changed s _ change functions, frozen⟩
  · obtain ⟨object', found', functions, frozen⟩ := registryAt?_eq_some.1 inside
    refine registryAt?_eq_some.2 ⟨object', found', ?_, frozen⟩
    rw [functions_changed_elsewhere separate owned (functionsOf?_registry found'), functions]
    exact fun same => apart (Owner.registry.inj same)
  · obtain ⟨object', found', values, functions⟩ := contextAt?_eq_some.1 inside
    refine contextAt?_eq_some.2 ⟨object', found', values, ?_⟩
    rw [functions_changed_elsewhere separate owned (functionsOf?_context found') nofun, functions]

theorem putsRegistry_setFrozen (held : s.registryAt? id = some r) :
    s.PutsRegistry (s.setFrozen id) id ⟨r.functions, true⟩ := by
  refine ⟨?_, fun {other there} apart inside => ?_, fun held => held⟩
  · obtain ⟨object, found, functions, frozen⟩ := registryAt?_eq_some.1 held
    refine registryAt?_eq_some.2 ⟨{ object with isFrozen := true }, ?_, functions, rfl⟩
    rw [setFrozen, Array.getElem?_modify, if_pos rfl, found]
    rfl
  · obtain ⟨object, found, functions, frozen⟩ := registryAt?_eq_some.1 inside
    refine registryAt?_eq_some.2 ⟨object, ?_, functions, frozen⟩
    rw [setFrozen, Array.getElem?_modify, if_neg (Ne.symm apart), found]

end

/-! ### New objects -/

theorem contextAt?_size (s : Store) : s.contextAt? s.contexts.size = none := by
  rw [contextAt?, Array.getElem?_eq_none (Nat.le_refl _)]
  rfl

theorem registryAt?_size (s : Store) : s.registryAt? s.registries.size = none := by
  rw [registryAt?, Array.getElem?_eq_none (Nat.le_refl _)]
  rfl

theorem putsContext_pushContext (object : ContextObject)
    (values : s.values[object.values.place]? = some c.values)
    (functions : s.functions[object.functions.place]? = some c.functions) :
    s.PutsContext (s.pushContext object) s.contexts.size c where
  put := contextAt?_eq_some.2 ⟨object, Array.getElem?_push_size, values, functions⟩
  others _ := (Keeps.pushContext s object).contexts
  registries := (Keeps.pushContext s object).registries

theorem putsRegistry_pushRegistry {object : RegistryObject}
    (functions : s.functions[object.functions]? = some r.functions)
    (frozen : object.isFrozen = r.isFrozen) :
    s.PutsRegistry (s.pushRegistry object) s.registries.size r where
  put := registryAt?_eq_some.2 ⟨object, Array.getElem?_push_size, functions, frozen⟩
  others _ := (Keeps.pushRegistry s object).registries
  contexts := (Keeps.pushRegistry s object).contexts

end Formula.Store
