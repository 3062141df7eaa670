import Formula.Proofs.Store.Objects
import Formula.Proofs.Tables

/-!
What operations do to a store. One that makes a context or writes to one changes what this context holds
and nothing else, one that is refused changes nothing, and a registry that could not be filled leaves
everything that was there before it.
-/

set_option autoImplicit false

namespace Formula.Store

open Stateful

variable {s t : Store} {id : Nat} {c : Context} {r : Registry} {α : Type}

/-- Objects have tables of their own, and those that are there from the start are as they were made. -/
structure Sound (s : Store) : Prop where
  separate : s.Separate
  empty : s.contextAt? emptyContext = some .empty
  builtin : s.registryAt? builtinRegistry = some .builtin

namespace Sound

theorem contexts_initial {id : Nat} {object : ContextObject}
    (found : Store.initial.contexts[id]? = some object) :
    id = emptyContext ∧ object = ⟨⟨0, true⟩, ⟨0, true⟩⟩ := by
  cases id with
  | zero => exact ⟨rfl, (Option.some.inj found).symm⟩
  | succ id => simp [Store.initial] at found

theorem registries_initial {id : Nat} {object : RegistryObject}
    (found : Store.initial.registries[id]? = some object) :
    id = builtinRegistry ∧ object = ⟨1, true⟩ := by
  cases id with
  | zero => exact ⟨rfl, (Option.some.inj found).symm⟩
  | succ id => simp [Store.initial] at found

theorem functionsOf?_initial {owner : Owner} {place : Nat}
    (owned : Store.initial.functionsOf? owner = some place) :
    owner = .context emptyContext ∧ place = 0 ∨ owner = .registry builtinRegistry ∧ place = 1 := by
  cases owner with
  | context id =>
      obtain ⟨object, found, same⟩ := Option.map_eq_some_iff.1 owned
      obtain ⟨rfl, rfl⟩ := contexts_initial found
      exact .inl ⟨rfl, same.symm⟩
  | registry id =>
      obtain ⟨object, found, same⟩ := Option.map_eq_some_iff.1 owned
      obtain ⟨rfl, rfl⟩ := registries_initial found
      exact .inr ⟨rfl, same.symm⟩

theorem valuesOf?_initial {id place : Nat} (owned : Store.initial.valuesOf? id = some place) :
    id = emptyContext ∧ place = 0 := by
  obtain ⟨object, found, same⟩ := Option.map_eq_some_iff.1 owned
  obtain ⟨rfl, rfl⟩ := contexts_initial found
  exact ⟨rfl, same.symm⟩

theorem separate_initial : Store.initial.Separate where
  values_lt owned := by
    obtain ⟨-, rfl⟩ := valuesOf?_initial owned
    exact Nat.zero_lt_one
  functions_lt owned := by
    obtain ⟨-, rfl⟩ | ⟨-, rfl⟩ := functionsOf?_initial owned
    · exact Nat.zero_lt_two
    · exact Nat.one_lt_two
  values_own _ _ _ owned again :=
    (valuesOf?_initial owned).1.trans (valuesOf?_initial again).1.symm
  functions_own _ _ _ owned again := by
    obtain ⟨rfl, rfl⟩ | ⟨rfl, rfl⟩ := functionsOf?_initial owned <;>
      obtain ⟨rfl, same⟩ | ⟨rfl, same⟩ := functionsOf?_initial again
    · rfl
    · cases same
    · cases same
    · rfl
  locks _ _ found := by
    obtain ⟨rfl, rfl⟩ := contexts_initial found
    exact ⟨iff_of_true rfl rfl, iff_of_true rfl rfl⟩

theorem initial : Store.initial.Sound := ⟨separate_initial, rfl, rfl⟩

theorem of_keeps (sound : s.Sound) (separate : t.Separate) (keeps : s.Keeps t) : t.Sound :=
  ⟨separate, keeps.contexts sound.empty, keeps.registries sound.builtin⟩

theorem of_putsContext (sound : s.Sound) (separate : t.Separate) (puts : s.PutsContext t id c)
    (apart : id ≠ emptyContext) : t.Sound :=
  ⟨separate, puts.others (Ne.symm apart) sound.empty, puts.registries sound.builtin⟩

theorem of_putsRegistry (sound : s.Sound) (separate : t.Separate) (puts : s.PutsRegistry t id r)
    (apart : id ≠ builtinRegistry) : t.Sound :=
  ⟨separate, puts.contexts sound.empty, puts.others (Ne.symm apart) sound.builtin⟩

end Sound

/-! ### What operations come to -/

/-- The operation fails, and what objects held before it stays. -/
def Refuses (s : Store) (x : Operation α) : Prop :=
  ∃ failure t, (x.outcome s).value = (.error failure, t) ∧ t.Sound ∧ s.Keeps t

/-- The operation makes a context. -/
def MakesContext (s : Store) (x : Operation Nat) (c : Context) : Prop :=
  ∃ id t, (x.outcome s).value = (.ok id, t) ∧ t.Sound ∧ s.contextAt? id = none ∧
    s.PutsContext t id c

/-- The operation changes what a context holds. -/
def WritesContext (s : Store) (x : Operation Unit) (id : Nat) (c : Context) : Prop :=
  ∃ t, (x.outcome s).value = (.ok (), t) ∧ t.Sound ∧ s.PutsContext t id c

/-- The operation makes a registry. -/
def MakesRegistry (s : Store) (x : Operation Nat) (r : Registry) : Prop :=
  ∃ id t, (x.outcome s).value = (.ok id, t) ∧ t.Sound ∧ s.registryAt? id = none ∧
    s.PutsRegistry t id r

/-- The operation changes what a registry has. -/
def WritesRegistry (s : Store) (x : Operation α) (answer : α) (id : Nat) (r : Registry) : Prop :=
  ∃ t, (x.outcome s).value = (.ok answer, t) ∧ t.Sound ∧ s.PutsRegistry t id r

theorem Sound.refuses (sound : s.Sound) {x : Operation α} (failure : Failure)
    (failed : (x.outcome s).value = (.error failure, s)) : s.Refuses x :=
  ⟨failure, s, failed, sound, .refl s⟩

theorem value_ask {look : Store → Option α} {a : α} (found : look s = some a) :
    ((ask look).outcome s).value = (.ok a, s) := by
  rw [ask, outcome_bind_of_ok (outcome_get s), found]
  rfl

theorem value_context (held : s.contextAt? id = some c) :
    ((context id).outcome s).value = (.ok c, s) := value_ask held

theorem value_registry (has : s.registryAt? id = some r) :
    ((registry id).outcome s).value = (.ok r, s) := value_ask has

/-! ### Contexts -/

theorem value_copyValues {place : Nat} {values : Table Float}
    (found : s.values[place]? = some values) :
    ((copyValues place).outcome s).value = (.ok s.values.size, s.pushValues values) := by
  rw [copyValues, value_bind_of_ok (value_ask found)]
  rfl

theorem value_copyFunctions {place : Nat} {functions : Table Function}
    (found : s.functions[place]? = some functions) :
    ((copyFunctions place).outcome s).value = (.ok s.functions.size, s.pushFunctions functions) := by
  rw [copyFunctions, value_bind_of_ok (value_ask found)]
  rfl

theorem makesContext_newContext (sound : s.Sound) (values functions : Nat)
    (foundValues : s.values[values]? = some c.values)
    (foundFunctions : s.functions[functions]? = some c.functions) :
    s.MakesContext (newContext values functions) c := by
  have done : ((newContext values functions).outcome s).value =
      (.ok s.contexts.size, ((s.pushValues c.values).pushFunctions c.functions).pushContext
        ⟨⟨s.values.size, false⟩, ⟨s.functions.size, false⟩⟩) := by
    rw [newContext, value_bind_of_ok (value_copyValues foundValues),
      value_bind_of_ok (value_copyFunctions (s := s.pushValues c.values) foundFunctions)]
    rfl
  have keeps : s.Keeps ((s.pushValues c.values).pushFunctions c.functions) :=
    (Keeps.pushValues s c.values).trans (Keeps.pushFunctions _ c.functions)
  have puts := (putsContext_pushContext ⟨⟨s.values.size, false⟩, ⟨s.functions.size, false⟩⟩
    (s := (s.pushValues c.values).pushFunctions c.functions) (c := c)
    Array.getElem?_push_size Array.getElem?_push_size).of_keeps keeps
  have stocked : s.contexts.size ≠ emptyContext := by
    intro none
    have absent := contextAt?_size s
    rw [none, sound.empty] at absent
    cases absent
  refine ⟨_, _, done, ?_, contextAt?_size s, puts⟩
  refine sound.of_putsContext ?_ puts stocked
  refine ((sound.separate.pushValues c.values).pushFunctions c.functions).pushContext stocked ?_ ?_
    (fun id owned => ?_) fun owner owned => ?_
  · exact Array.size_push _ ▸ Nat.lt_succ_self _
  · exact Array.size_push _ ▸ Nat.lt_succ_self _
  · exact Nat.lt_irrefl _ (sound.separate.values_lt owned)
  · exact Nat.lt_irrefl _ (sound.separate.functions_lt owned)

theorem makesContext_rebuild (sound : s.Sound) (held : s.contextAt? id = some c) :
    s.MakesContext (rebuild id) c := by
  obtain ⟨object, found, values, functions⟩ := contextAt?_eq_some.1 held
  obtain ⟨new, t, done, rest⟩ := makesContext_newContext sound _ _ values functions
  exact ⟨new, t, by rw [rebuild, value_bind_of_ok (value_ask found), done], rest⟩

theorem MakesContext.of_keeps {x : Operation Nat} (keeps : s.Keeps t) (makes : t.MakesContext x c) :
    ∃ id u, (x.outcome t).value = (.ok id, u) ∧ u.Sound ∧ s.contextAt? id = none ∧
      s.PutsContext u id c := by
  obtain ⟨id, u, done, sound, absent, puts⟩ := makes
  refine ⟨id, u, done, sound, Option.eq_none_iff_forall_not_mem.2 fun held found => ?_,
    puts.of_keeps keeps⟩
  cases absent.symm.trans (keeps.contexts found)

theorem makesContext_construct (sound : s.Sound) (c : Context) : s.MakesContext (construct c) c := by
  have keeps := (Keeps.pushValues s c.values).trans (Keeps.pushFunctions _ c.functions)
  have separate := (sound.separate.pushValues c.values).pushFunctions c.functions
  have makes := makesContext_newContext (c := c) (sound.of_keeps separate keeps) s.values.size
    s.functions.size Array.getElem?_push_size Array.getElem?_push_size
  have made := makes.of_keeps keeps
  exact made

theorem makesContext_child (sound : s.Sound) (held : s.contextAt? id = some c) :
    s.MakesContext (child id) c := by
  rw [MakesContext, child, value_bind_of_ok (value_context held)]
  exact makesContext_construct sound c

section

variable (sound : s.Sound) (held : s.contextAt? id = some c)

include sound held

/-- A write that is open to every context but the empty one. -/
theorem writesContext_setVariable {name : String} {number : Number} {v : Float}
    (writable : id ≠ emptyContext) (value : number.toDouble = .ok v) :
    s.WritesContext (setVariable id name number) id ⟨c.values.insert name v, c.functions⟩ := by
  obtain ⟨object, found, -, -⟩ := contextAt?_eq_some.1 held
  have puts := putsContext_changeValues sound.separate found held (·.insert name v)
  refine ⟨_, ?_, sound.of_putsContext (sound.separate.changeValues _ _) puts writable, puts⟩
  rw [setVariable, value_bind_of_ok (value_ask found), value_bind_of_ok (value_ofFallible value),
    if_neg fun locked => writable ((sound.separate.locks id object found).1.1 locked)]
  rfl

theorem writesContext_define {f : Function} (writable : id ≠ emptyContext) :
    s.WritesContext (define id f) id ⟨c.values, c.functions.insert f.name f⟩ := by
  obtain ⟨object, found, -, -⟩ := contextAt?_eq_some.1 held
  have puts := putsContext_changeFunctions sound.separate found held (·.insert f.name f)
  refine ⟨_, ?_, sound.of_putsContext (sound.separate.changeFunctions _ _) puts writable, puts⟩
  rw [define, value_bind_of_ok (value_ask found),
    if_neg fun locked => writable ((sound.separate.locks id object found).2.1 locked)]
  rfl

theorem writesContext_install {registry : Nat} (registered : s.registryAt? registry = some r)
    (writable : id ≠ emptyContext) :
    s.WritesContext (install registry id) id ⟨c.values, c.functions.insertAll r.functions⟩ := by
  obtain ⟨object, found, -, -⟩ := contextAt?_eq_some.1 held
  have puts := putsContext_changeFunctions sound.separate found held (·.insertAll r.functions)
  refine ⟨_, ?_, sound.of_putsContext (sound.separate.changeFunctions _ _) puts writable, puts⟩
  rw [install, value_bind_of_ok (value_registry registered),
    value_bind_of_ok (value_ask found),
    if_neg fun locked => writable ((sound.separate.locks id object found).2.1 locked)]
  rfl

end

theorem value_setVariable_unreadable (held : s.contextAt? id = some c) {name : String}
    {number : Number} {failure : Failure} (value : number.toDouble = .error failure) :
    ((setVariable id name number).outcome s).value = (.error failure, s) := by
  obtain ⟨object, found, -, -⟩ := contextAt?_eq_some.1 held
  rw [setVariable, value_bind_of_ok (value_ask found)]
  exact value_bind_of_error (value_ofFallible value)

theorem refuses_setVariable_locked (sound : s.Sound) {name : String} {number : Number} {v : Float}
    (value : number.toDouble = .ok v) : s.Refuses (setVariable emptyContext name number) := by
  obtain ⟨object, found, -, -⟩ := contextAt?_eq_some.1 sound.empty
  refine sound.refuses (.wordless .readOnlyBinding) ?_
  rw [setVariable, value_bind_of_ok (value_ask found), value_bind_of_ok (value_ofFallible value),
    if_pos ((sound.separate.locks _ object found).1.2 rfl)]
  rfl

theorem refuses_define_locked (sound : s.Sound) (f : Function) :
    s.Refuses (define emptyContext f) := by
  obtain ⟨object, found, -, -⟩ := contextAt?_eq_some.1 sound.empty
  refine sound.refuses (.wordless .readOnlyBinding) ?_
  rw [define, value_bind_of_ok (value_ask found),
    if_pos ((sound.separate.locks _ object found).2.2 rfl)]
  rfl

theorem refuses_install_locked (sound : s.Sound) {registry : Nat}
    (registered : s.registryAt? registry = some r) : s.Refuses (install registry emptyContext) := by
  obtain ⟨object, found, -, -⟩ := contextAt?_eq_some.1 sound.empty
  refine sound.refuses (.wordless .readOnlyInstall) ?_
  rw [install, value_bind_of_ok (value_registry registered),
    value_bind_of_ok (value_ask found), if_pos ((sound.separate.locks _ object found).2.2 rfl)]
  rfl

/-! ### Registries -/

section

/-- What is no function is refused by every registry. -/
theorem value_register_other (held : s.registryAt? id = some r) (level : Level) :
    ∃ failure, ((register level id none).outcome s).value = (.error failure, s) := by
  obtain ⟨object, found, -, -⟩ := registryAt?_eq_some.1 held
  rw [register, value_bind_of_ok (value_ask found)]
  exact ⟨_, rfl⟩

variable (sound : s.Sound) (held : s.registryAt? id = some r) (level : Level)

include sound held

theorem refuses_register_other : s.Refuses (register level id none) := by
  obtain ⟨failure, failed⟩ := value_register_other held level
  exact sound.refuses failure failed

theorem refuses_register_frozen (frozen : r.isFrozen = true) (f : Function) :
    s.Refuses (register level id (some f)) := by
  obtain ⟨object, found, -, same⟩ := registryAt?_eq_some.1 held
  refine sound.refuses (.frozen f.name) ?_
  rw [register, value_bind_of_ok (value_ask found)]
  simp only [same, frozen, if_true]
  rfl

theorem writesRegistry_register (isOpen : r.isFrozen = false) (f : Function) :
    s.WritesRegistry (register level id (some f)) f id
      ⟨r.functions.insert f.name f, r.isFrozen⟩ := by
  obtain ⟨object, found, -, same⟩ := registryAt?_eq_some.1 held
  have puts := putsRegistry_changeFunctions sound.separate found held (·.insert f.name f)
  refine ⟨_, ?_, sound.of_putsRegistry (sound.separate.changeFunctions _ _) puts ?_, puts⟩
  · rw [register, value_bind_of_ok (value_ask found)]
    simp only [same, isOpen, Bool.false_eq_true, if_false]
    rfl
  · rintro rfl
    cases sound.builtin.symm.trans held
    cases isOpen

theorem writesRegistry_freeze :
    s.WritesRegistry (freeze id) () id ⟨r.functions, true⟩ := by
  have puts := putsRegistry_setFrozen held
  refine ⟨s.setFrozen id, rfl, ⟨sound.separate.setFrozen id, puts.contexts sound.empty, ?_⟩, puts⟩
  by_cases same : id = builtinRegistry
  · subst same
    cases sound.builtin.symm.trans held
    exact puts.put
  · exact puts.others (Ne.symm same) sound.builtin

theorem writesRegistry_registerAll (isOpen : r.isFrozen = false) (functions : List Function) :
    s.WritesRegistry (registerAll level id (functions.map some)) () id
      ⟨functions.foldl (fun t f => t.insert f.name f) r.functions, r.isFrozen⟩ := by
  induction functions generalizing s r with
  | nil => exact ⟨s, rfl, sound, .refl held⟩
  | cons f rest ih =>
      obtain ⟨t, done, sound', puts⟩ := writesRegistry_register sound held level isOpen f
      obtain ⟨u, done', sound'', puts'⟩ := ih sound' puts.put isOpen
      refine ⟨u, ?_, sound'', puts.trans puts'⟩
      rw [List.map_cons, registerAll, value_bind_of_ok done, done']

/-- With something else among them, only the registry itself has changed by the time of the failure. -/
theorem registerAll_refused (isOpen : r.isFrozen = false) {offers : List (Option Function)}
    (other : none ∈ offers) :
    ∃ failure t r', ((registerAll level id offers).outcome s).value = (.error failure, t) ∧
      t.Sound ∧ s.PutsRegistry t id r' := by
  induction offers generalizing s r with
  | nil => cases other
  | cons offer rest ih =>
      cases offer with
      | none =>
          obtain ⟨failure, failed⟩ := value_register_other held level
          exact ⟨failure, s, r, value_bind_of_error failed, sound, .refl held⟩
      | some f =>
          obtain ⟨t, done, sound', puts⟩ := writesRegistry_register sound held level isOpen f
          obtain ⟨failure, u, r', failed, sound'', puts'⟩ :=
            ih sound' puts.put isOpen ((List.mem_cons.1 other).resolve_left nofun)
          refine ⟨failure, u, r', ?_, sound'', puts.trans puts'⟩
          rw [registerAll, value_bind_of_ok done, failed]

end

def withRegistry (s : Store) : Store :=
  (s.pushFunctions .empty).pushRegistry ⟨s.functions.size, false⟩

theorem putsRegistry_withRegistry (s : Store) :
    s.PutsRegistry s.withRegistry s.registries.size ⟨.empty, false⟩ :=
  (putsRegistry_pushRegistry (s := s.pushFunctions .empty) (r := ⟨.empty, false⟩)
    Array.getElem?_push_size rfl).of_keeps (Keeps.pushFunctions s .empty)

theorem Sound.withRegistry (sound : s.Sound) : s.withRegistry.Sound := by
  refine sound.of_keeps ?_ ((putsRegistry_withRegistry s).keeps (registryAt?_size s))
  refine (sound.separate.pushFunctions .empty).pushRegistry ?_ fun owner owned => ?_
  · exact Array.size_push _ ▸ Nat.lt_succ_self _
  · exact Nat.lt_irrefl _ (sound.separate.functions_lt owned)

theorem value_newRegistry (s : Store) (level : Level) (offers : List (Option Function)) :
    ((newRegistry level offers).outcome s).value =
      ((registerAll level s.registries.size offers >>= fun _ => pure s.registries.size).outcome
        s.withRegistry).value := rfl

theorem makesRegistry_newRegistry (sound : s.Sound) (level : Level) (functions : List Function) :
    s.MakesRegistry (newRegistry level (functions.map some))
      ⟨.ofList (functions.map fun f => (f.name, f)), false⟩ := by
  have puts := putsRegistry_withRegistry s
  obtain ⟨t, done, sound', puts'⟩ :=
    writesRegistry_registerAll sound.withRegistry puts.put level rfl functions
  refine ⟨s.registries.size, t, ?_, sound', registryAt?_size s, ?_⟩
  · rw [value_newRegistry, value_bind_of_ok done]
    rfl
  · rw [Table.ofList, List.foldl_map]
    exact puts.trans puts'

theorem refuses_newRegistry (sound : s.Sound) (level : Level) {offers : List (Option Function)}
    (other : none ∈ offers) : s.Refuses (newRegistry level offers) := by
  have puts := putsRegistry_withRegistry s
  obtain ⟨failure, t, r', failed, sound', puts'⟩ :=
    registerAll_refused sound.withRegistry puts.put level rfl other
  refine ⟨failure, t, ?_, sound', (puts.trans puts').keeps (registryAt?_size s)⟩
  rw [value_newRegistry]
  exact value_bind_of_error failed

/-! ### Lookups -/

theorem value_variableValue (held : s.contextAt? id = some c) (name : String) :
    ((variableValue id name).outcome s).value = (c.variableValue name, s) := by
  rw [variableValue, value_bind_of_ok (value_context held)]
  rfl

theorem lookup_definitions (bs : List Builtin) (name : String) :
    ((bs.map Builtin.definition).map fun f : Function => (f.name, f)).lookup name =
      (bs.find? fun b => b.name == name).map Builtin.definition := by
  induction bs with
  | nil => rfl
  | cons b rest ih =>
      rw [List.map_cons, List.map_cons, Table.lookup_cons, List.find?_cons, ih]
      by_cases same : b.name = name
      · simp [same, Builtin.definition]
      · simp [same, beq_eq_false_iff_ne.2 same, Builtin.definition]

/-- The operation leaves the store as it is. -/
abbrev Reads (x : Operation α) : Prop := Within Eq x

namespace Reads

theorem bind {β : Type} {x : Operation α} {f : α → Operation β} (first : Reads x)
    (rest : ∀ a, Reads (f a)) : Reads (x >>= f) := Within.bind Eq.trans first rest

theorem ask (look : Store → Option α) : Reads (Store.ask look) := by
  refine .bind (fun _ => rfl) fun s => ?_
  cases look s <;> exact fun _ => rfl

theorem context (id : Nat) : Reads (Store.context id) := ask _

theorem registry (id : Nat) : Reads (Store.registry id) := ask _

theorem variableValue (id : Nat) (name : String) : Reads (Store.variableValue id name) :=
  .bind (context id) fun _ _ => rfl

theorem findFunction (id : Nat) (name : String) : Reads (Store.findFunction id name) := by
  refine .bind (context id) fun c => ?_
  cases c.functions.get? name with
  | some f => exact fun _ => rfl
  | none => exact .bind (registry _) fun _ _ => rfl

theorem resolve (id : Nat) (name : String) : Reads (Store.resolve id name) := by
  refine .bind (findFunction id name) fun found => ?_
  cases found <;> exact fun _ => rfl

end Reads

/-- The registry of the built-in functions has each of them under its name. -/
theorem get?_builtin (name : String) :
    Registry.builtin.functions.get? name = (Builtin.ofName? name).map Builtin.definition := by
  rw [Registry.builtin, Table.ofList, Table.get?_insertEach _ (by decide), Table.get?_empty,
    Option.or_none, Registry.stock, lookup_definitions, Builtin.ofName?]

/-- The built-in registry of the store stands for the built-in functions. -/
theorem value_findFunction (sound : s.Sound) (held : s.contextAt? id = some c) (name : String) :
    ((findFunction id name).outcome s).value = (.ok (c.findFunction name), s) := by
  rw [findFunction, value_bind_of_ok (value_context held), Context.findFunction]
  cases c.functions.get? name with
  | some f => rfl
  | none =>
      dsimp only
      rw [value_bind_of_ok (value_registry sound.builtin), ← get?_builtin]
      rfl

theorem value_resolve (sound : s.Sound) (held : s.contextAt? id = some c) (name : String) :
    ((resolve id name).outcome s).value = (c.resolve name, s) := by
  rw [resolve, value_bind_of_ok (value_findFunction sound held name), Context.resolve]
  cases c.findFunction name <;> rfl

end Formula.Store
