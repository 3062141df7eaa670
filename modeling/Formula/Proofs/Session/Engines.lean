import Formula.Proofs.Simplify.Records
import Formula.Proofs.Store.Records
import Formula.Session

/-!
Sessions that differ in their engines. A step that does not set the engine leaves it as it is, and of
the settings in force it reads no more than the limit and the kind of arithmetic. The level decides
which records are written and nothing else.
-/

set_option autoImplicit false

namespace Formula

/-- Two engines compute alike: their settings differ in the logging level at most. -/
structure Engine.Alike (e other : Engine) : Prop where
  maxDepth : e.settings.maxDepth = other.settings.maxDepth
  strict : e.settings.strict = other.settings.strict

namespace Engine.Alike

theorem refl (e : Engine) : e.Alike e := ⟨rfl, rfl⟩

variable {e other : Engine} (alike : e.Alike other)

include alike

theorem limit (explicit : Option Int) : e.limit explicit = other.limit explicit := by
  rw [Engine.limit, Engine.limit, alike.maxDepth]

theorem evaluate (c : Option Context) (tree : Expr) : e.evaluate c tree = other.evaluate c tree := by
  rw [Engine.evaluate, Engine.evaluate, alike.strict]

theorem parse (explicit : Option Int) (text : String) :
    (e.parse explicit text).value = (other.parse explicit text).value := by
  rw [Engine.parse, Engine.parse, alike.strict, alike.limit]
  exact Expr.value_parse_level _ _ _ _ _

theorem read (source : Source) : (source.read e).value = (source.read other).value := by
  cases source with
  | tree description => rfl
  | raw text limit =>
      have same : e.parseRaw limit = other.parseRaw limit := by
        funext text
        rw [Engine.parseRaw, Engine.parseRaw, alike.limit]
      simp only [Source.read, Logged.ofFallible, same]
  | parsed text limit =>
      simp only [Source.read]
      cases requireText text with
      | error failure => rfl
      | ok text => exact alike.parse limit text

end Engine.Alike

namespace Session

open Stateful

def withEngine (s : Session) (e : Engine) : Session := { s with engine := e }

/-- The step puts settings in force, or sets the logger's level. -/
def Step.setsEngine : Step → Bool
  | .putSettings _ | .resetSettings | .override _ | .restore | .configureLogger _ | .setLevel _ => true
  | _ => false

def Step.showsEngine : Step → Bool
  | .showSettings => true
  | _ => false

/-! ### Records -/

/-- What a step requires for general information. -/
def Step.general : Step → Level
  | .log (.info required) _ => required
  | _ => .detailed

def Step.isWarning : Step → Bool
  | .log .warning _ => true
  | _ => false

/-- The records that engines alike to a given one write differ in nothing but the level. -/
def WritesAlike (engine : Engine) (general : Level) (warns : Prop)
    (records : Engine → List Record) : Prop :=
  ∃ written, Writes general warns written ∧ ∀ e : Engine, e.Alike engine → records e = written e.level

theorem writesAlike_read (engine : Engine) (general : Level) (source : Source) :
    WritesAlike engine general (engine.settings.strict = true) fun e => (source.read e).records := by
  cases source with
  | tree | raw => exact ⟨_, .nothing, fun _ _ => rfl⟩
  | parsed text limit =>
      simp only [Source.read]
      cases requireText text with
      | error failure => exact ⟨_, .nothing, fun _ _ => rfl⟩
      | ok text =>
          refine ⟨_, Expr.writes_parse general engine.settings.strict (engine.limit limit) text,
            fun e alike => ?_⟩
          rw [← alike.strict, ← alike.limit]
          rfl

/-! ### Steady actions -/

/-- With engines alike to a given one an action does the same, and what it writes differs in nothing but
the level. It leaves the engine as it is. -/
def Steady {α : Type} (engine : Engine) (general : Level) (warns : Prop) (x : Action α) : Prop :=
  ∀ s : Session, ∃ (result : Fallible α) (t : Session) (written : Level → List Record),
    Writes general warns written ∧ ∀ e : Engine, e.Alike engine →
      x.outcome (s.withEngine e) = ⟨(result, t.withEngine e), written e.level⟩

theorem outcome_consult {α : Type} (use : Engine → Logged (Fallible α)) (s : Session) :
    (Session.consult use).outcome s = ⟨((use s.engine).value, s), (use s.engine).records⟩ :=
  outcome_ofLogged (use s.engine) s

namespace Steady

variable {α β : Type} {engine : Engine} {general : Level} {warns : Prop}

theorem bind {x : Action α} {f : α → Action β} (first : Steady engine general warns x)
    (rest : ∀ a, Steady engine general warns (f a)) : Steady engine general warns (x >>= f) := by
  intro s
  obtain ⟨result, t, written, writes, same⟩ := first s
  cases result with
  | error failure =>
      exact ⟨.error failure, t, written, writes, fun e alike => outcome_bind_of_error (same e alike)⟩
  | ok a =>
      obtain ⟨result, u, more, writes', same'⟩ := rest a t
      refine ⟨result, u, _, writes.append writes', fun e alike => ?_⟩
      rw [outcome_bind_of_ok (same e alike), same' e alike]

theorem pure (a : α) : Steady engine general warns (Pure.pure a : Action α) := fun s =>
  ⟨.ok a, s, _, .nothing, fun _ _ => rfl⟩

theorem throw (failure : Failure) :
    Steady engine general warns (MonadExcept.throw failure : Action α) := fun s =>
  ⟨.error failure, s, _, .nothing, fun _ _ => rfl⟩

theorem ofFallible (result : Fallible α) :
    Steady engine general warns (Stateful.ofFallible result : Action α) := fun s =>
  ⟨result, s, _, .nothing, fun _ _ => rfl⟩

theorem consult {use : Engine → Logged (Fallible α)}
    (same : ∀ e : Engine, e.Alike engine → (use e).value = (use engine).value)
    (writes : WritesAlike engine general warns fun e => (use e).records) :
    Steady engine general warns (Session.consult use) := by
  intro s
  obtain ⟨written, writes, records⟩ := writes
  refine ⟨(use engine).value, s, written, writes, fun e alike => ?_⟩
  have own : (use e).records = written e.level := records e alike
  rw [outcome_consult]
  exact congr (congrArg _ (congrArg (·, s.withEngine e) (same e alike))) own

/-- A slot is looked up that is no part of the engine. -/
theorem held {slots : Session → Table α} (apart : ∀ s e, slots (s.withEngine e) = slots s)
    (slot : String) : Steady engine general warns (Session.held slots slot) := by
  intro s
  cases found : (slots s).get? slot with
  | none =>
      refine ⟨.error (.wordless .emptySlot), s, _, .nothing, fun e _ => outcome_held_none ?_⟩
      rw [apart, found]
  | some value =>
      refine ⟨.ok value, s, _, .nothing, fun e _ => outcome_held ?_⟩
      rw [apart, found]

theorem onStore {operation : Level → Store.Operation α} (logs : Store.Logs general warns operation) :
    Steady engine general warns (Session.onStore operation) := by
  intro s
  obtain ⟨⟨result, store⟩, written, writes, same⟩ := logs s.store
  refine ⟨result, { s with store }, written, writes, fun e _ => ?_⟩
  exact congrArg (Logged.mapValue fun reply : Fallible α × Store =>
    (reply.1, { s.withEngine e with store := reply.2 })) (same e.level)

/-- Something is changed that is no part of the engine. -/
theorem change {f : Session → Session}
    (apart : ∀ s e, f (s.withEngine e) = (f s).withEngine e) :
    Steady engine general warns (modify f : Action Unit) := fun s =>
  ⟨.ok (), f s, _, .nothing, fun e _ => by rw [outcome_modify, apart]; rfl⟩

end Steady

section

variable {engine : Engine} {general : Level} {warns : Prop}

theorem steady_putExpression (slot : String) (e : Expr) :
    Steady engine general warns (putExpression slot e) := .change fun _ _ => rfl

theorem steady_describeContext (id : Nat) : Steady engine general warns (describeContext id) :=
  .bind (.onStore (.context id)) fun _ => .pure _

theorem steady_answerContext (slot : String) (id : Nat) :
    Steady engine general warns (answerContext slot id) :=
  .bind (.change fun _ _ => rfl) fun _ => steady_describeContext id

theorem steady_describeRegistry (id : Nat) : Steady engine general warns (describeRegistry id) :=
  .bind (.onStore (.registry id)) fun _ => .pure _

theorem steady_answerRegistry (slot : String) (id : Nat) :
    Steady engine general warns (answerRegistry slot id) :=
  .bind (.change fun _ _ => rfl) fun _ => steady_describeRegistry id

theorem steady_scopeContext (scope : Scope) :
    Steady engine general warns (scopeContext scope) := by
  cases scope with
  | none => exact .pure none
  | slot name =>
      exact .bind (.held (fun _ _ => rfl) name) fun id =>
        .bind (.onStore (.context id)) fun c => .pure (some c)
  | bindings b => exact .bind (.ofFallible b.context) fun c => .pure (some c)

theorem steady_readInto (due : engine.settings.strict = true → warns) (into : String)
    (source : Source) : Steady engine general warns (readInto into source) := by
  obtain ⟨written, writes, same⟩ := writesAlike_read engine general source
  exact .bind (.consult (fun e alike => alike.read source) ⟨written, writes.mono due, same⟩)
    fun e => .bind (steady_putExpression into e) fun _ => .pure _

theorem steady_evaluateIn (slot : String) (scope : Scope) :
    Steady engine general warns (evaluateIn slot scope) :=
  .bind (.held (fun _ _ => rfl) slot) fun tree => .bind (steady_scopeContext scope) fun c =>
    .bind (.consult (fun _ alike => alike.evaluate c tree) ⟨_, .nothing, fun _ _ => rfl⟩)
      fun _ => .pure _

theorem steady_differentiateInto (slot x : String) (scope : Scope) (into : String) :
    Steady engine general warns (differentiateInto slot x scope into) :=
  .bind (.held (fun _ _ => rfl) slot) fun tree => .bind (steady_scopeContext scope) fun c =>
    .bind (.ofFallible (tree.differentiate x c)) fun derived =>
      .bind (steady_putExpression into derived) fun _ => .pure _

theorem steady_simplifyInto (due : engine.settings.strict = true → warns) (slot into : String) :
    Steady engine general warns (simplifyInto slot into) := by
  refine .bind (.held (fun _ _ => rfl) slot) fun tree => .bind (.consult ?_ ?_) fun simplified =>
    .bind (steady_putExpression into simplified.1) fun _ => .pure _
  · intro e alike
    simp only [Engine.simplify, alike.strict, Expr.tree_simplify_level _ e.level engine.level,
      Expr.changed_simplify_level _ e.level engine.level]
  · refine ⟨_, (Expr.writes_simplify _ engine.settings.strict tree).mono due, fun e alike => ?_⟩
    simp only [Engine.simplify, alike.strict]

theorem steady_makeContext (bindings : Bindings) (withBuiltins : Bool) :
    Steady engine general warns (makeContext bindings withBuiltins) := by
  refine .bind (.ofFallible _) fun c => .bind (.onStore (.construct c)) fun id => ?_
  cases withBuiltins with
  | true => exact .bind (.onStore (.install _ id)) fun _ => .pure id
  | false => exact .pure id

theorem steady_changeContext (slot : String) {change : Nat → Action Unit}
    (steady : ∀ id, Steady engine general warns (change id)) :
    Steady engine general warns (changeContext slot change) :=
  .bind (.held (fun _ _ => rfl) slot) fun id => .bind (steady id) fun _ => steady_describeContext id

theorem steady_makeRegistry (kind : RegistryKind) :
    Steady engine .detailed warns (makeRegistry kind) := by
  cases kind with
  | offering offers => exact .bind (.ofFallible _) fun functions => .onStore (.newRegistry functions)
  | fresh => exact .onStore (.newRegistry _)
  | builtin => exact .pure _

/-- What a step does that neither sets nor shows the engine, it does with other engines that compute
alike, too. -/
theorem steady_perform (engine : Engine) {action : Step} (keeps : action.setsEngine = false)
    (hides : action.showsEngine = false) :
    Steady engine action.general (engine.settings.strict = true ∨ action.isWarning = true)
      (perform action) := by
  cases action with
  | parse into text => exact steady_readInto .inl into _
  | build into source => exact steady_readInto .inl into source
  | buildOther | putOther => exact .throw _
  | evaluate slot scope => exact steady_evaluateIn slot scope
  | differentiate slot x scope into => exact steady_differentiateInto slot x scope into
  | simplify slot into => exact steady_simplifyInto .inl slot into
  | inspect slot => exact .bind (.held (fun _ _ => rfl) slot) fun _ => .pure _
  | compare a b =>
      exact .bind (.held (fun _ _ => rfl) a) fun _ => .bind (.held (fun _ _ => rfl) b) fun _ => .pure _
  | newContext slot bindings withBuiltins =>
      exact .bind (steady_makeContext bindings withBuiltins) fun id => steady_answerContext slot id
  | emptyContext slot => exact steady_answerContext slot _
  | childContext slot into =>
      exact .bind (.held (fun _ _ => rfl) slot) fun id => .bind (.onStore (.child id)) fun new =>
        steady_answerContext into new
  | rebuildContext slot into =>
      exact .bind (.held (fun _ _ => rfl) slot) fun id => .bind (.onStore (.rebuild id)) fun new =>
        steady_answerContext into new
  | shareContext slot into =>
      exact .bind (.held (fun _ _ => rfl) slot) fun id => steady_answerContext into id
  | setVariable slot name number =>
      exact steady_changeContext slot fun id => .onStore (.setVariable id name number)
  | define slot fields =>
      exact steady_changeContext slot fun id => .bind (.ofFallible _) fun f => .onStore (.define id f)
  | installBuiltins slot => exact steady_changeContext slot fun id => .onStore (.install _ id)
  | showContext slot => exact .bind (.held (fun _ _ => rfl) slot) steady_describeContext
  | lookUpVariable slot name =>
      exact .bind (.held (fun _ _ => rfl) slot) fun id =>
        .bind (.onStore (.variableValue id name)) fun _ => .pure _
  | findFunction slot name =>
      exact .bind (.held (fun _ _ => rfl) slot) fun id =>
        .bind (.onStore (.findFunction id name)) fun _ => .pure _
  | resolveFunction slot name =>
      exact .bind (.held (fun _ _ => rfl) slot) fun id =>
        .bind (.onStore (.resolve id name)) fun _ => .pure _
  | newRegistry slot kind =>
      exact .bind (steady_makeRegistry kind) fun id => steady_answerRegistry slot id
  | shareRegistry slot into =>
      exact .bind (.held (fun _ _ => rfl) slot) fun id => steady_answerRegistry into id
  | showRegistry slot => exact .bind (.held (fun _ _ => rfl) slot) steady_describeRegistry
  | register slot offer =>
      exact .bind (.held (fun _ _ => rfl) slot) fun id =>
        .bind (.bind (.ofFallible _) fun f => .onStore (.register id f)) fun _ => .pure _
  | getFunction slot name =>
      exact .bind (.held (fun _ _ => rfl) slot) fun id => .bind (.onStore (.registry id)) fun _ =>
        .pure _
  | freeze slot =>
      exact .bind (.held (fun _ _ => rfl) slot) fun id => .bind (.onStore (.freeze id)) fun _ =>
        .pure _
  | installRegistry registry slot =>
      exact .bind (.held (fun _ _ => rfl) registry) fun other =>
        steady_changeContext slot fun id => .onStore (.install other id)
  | log call text =>
      refine .bind (.consult (fun _ _ => rfl) ?_) fun _ => .pure _
      cases call with
      | info required => exact ⟨_, .info text, fun _ _ => rfl⟩
      | warning => exact ⟨_, .warning text (.inr rfl), fun _ _ => rfl⟩
      | detail => exact ⟨_, .info text, fun _ _ => rfl⟩
      | debug => exact ⟨_, .debug text, fun _ _ => rfl⟩
  | showSettings => cases hides
  | putSettings | resetSettings | override | restore | configureLogger | setLevel => cases keeps

end

/-! ### Steps that set the engine -/

/-- What a step answers that puts settings in force, with what it makes of the session. -/
def installed (s : Session) (settings shown : Settings) (saved : List Settings) : Outcome :=
  ⟨s.withEngine ⟨settings, settings.level, saved⟩, .ok (.settings shown),
    settings.level.info .moderate settings.summary⟩

section

variable {s : Session} {action : Step} {changes : Settings.Changes} {settings : Settings}
  {failure : Failure}

theorem outcome_putEngine {change : Engine → Fallible (Logged Engine)} {changed : Logged Engine}
    (made : change s.engine = .ok changed) :
    (putEngine change).outcome s = ⟨(.ok (), s.withEngine changed.value), changed.records⟩ := by
  have consulted := outcome_consult (fun engine => .ofAttempt (change engine)) s
  simp only [made] at consulted
  rw [putEngine, outcome_bind_of_ok consulted]
  exact congrArg (Logged.mk _) (List.append_nil changed.records)

theorem outcome_putEngine_refused {change : Engine → Fallible (Logged Engine)}
    (refused : change s.engine = .error failure) :
    (putEngine change).outcome s = ⟨(.error failure, s), []⟩ := by
  have consulted := outcome_consult (fun engine => .ofAttempt (change engine)) s
  simp only [refused] at consulted
  rw [putEngine, outcome_bind_of_error consulted]
  rfl

section

variable (change : Engine → Fallible (Logged Engine)) (rest : Unit → Action Answer)
  (performed : (perform action).outcome s = (putEngine change >>= rest).outcome s)

include performed

theorem step_install {e : Engine} {shown : Settings}
    (made : change s.engine = .ok (e.install settings))
    (answered : (rest ()).outcome (s.withEngine (e.install settings).value) =
      ⟨(.ok (.settings shown), s.withEngine (e.install settings).value), []⟩) :
    s.step action = s.installed settings shown e.saved := by
  rw [step, performed, outcome_bind_of_ok (outcome_putEngine made), answered, List.append_nil]
  rfl

theorem step_refuse (refused : change s.engine = .error failure) :
    s.step action = ⟨s, .error failure, []⟩ := by
  rw [step, performed, outcome_bind_of_error (outcome_putEngine_refused refused)]

end

theorem step_putSettings (made : Settings.ofChanges changes = .ok settings) :
    s.step (.putSettings changes) = s.installed settings s.engine.settings s.engine.saved :=
  step_install (·.configure changes) (fun _ => return .settings s.engine.settings) rfl
    (congrArg (Except.map s.engine.install) made) rfl

theorem step_putSettings_refused (refused : Settings.ofChanges changes = .error failure) :
    s.step (.putSettings changes) = ⟨s, .error failure, []⟩ :=
  step_refuse (·.configure changes) (fun _ => return .settings s.engine.settings) rfl
    (congrArg (Except.map s.engine.install) refused)

theorem step_resetSettings (s : Session) :
    s.step .resetSettings = s.installed .default .default s.engine.saved :=
  step_install (fun e => .ok e.reset) (fun _ => do return .settings (← Session.settings)) rfl rfl rfl

theorem step_override (made : s.engine.settings.change changes = .ok settings) :
    s.step (.override changes) =
      s.installed settings settings (s.engine.settings :: s.engine.saved) :=
  step_install (·.override changes) (fun _ => do return .settings (← Session.settings)) rfl
    (congrArg (Except.map _) made) rfl

theorem step_override_refused (refused : s.engine.settings.change changes = .error failure) :
    s.step (.override changes) = ⟨s, .error failure, []⟩ :=
  step_refuse (·.override changes) (fun _ => do return .settings (← Session.settings)) rfl
    (congrArg (Except.map _) refused)

theorem restore_saved {rest : List Settings} {e : Engine} (saved : e.saved = settings :: rest) :
    e.restore = .ok (({ e with saved := rest } : Engine).install settings) := by
  rw [Engine.restore, saved]

theorem step_restore {rest : List Settings} (saved : s.engine.saved = settings :: rest) :
    s.step .restore = s.installed settings settings rest :=
  step_install (·.restore) (fun _ => do return .settings (← Session.settings)) rfl
    (restore_saved saved) rfl

theorem step_restore_refused (saved : s.engine.saved = []) :
    s.step .restore = ⟨s, .error (.wordless .noOverride), []⟩ := by
  refine step_refuse (·.restore) (fun _ => do return .settings (← Session.settings)) rfl ?_
  rw [Engine.restore, saved]

end

end Session

end Formula
