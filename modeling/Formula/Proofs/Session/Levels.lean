import Formula.Proofs.Session.Engines

/-!
Logging levels. Two sessions that differ in the level take the same steps with the same answers, and
the one with the lower level writes the records of the other that its level reaches. In plain
arithmetic there are no warnings.
-/

set_option autoImplicit false

namespace Formula

namespace Engine

/-- The engine with another level of its logger, and another one in its settings. -/
def atLevels (e : Engine) (level configured : Level) : Engine :=
  { e with level, settings := { e.settings with level := configured } }

theorem alike_atLevels (e : Engine) (level configured : Level) :
    (e.atLevels level configured).Alike e := ⟨rfl, rfl⟩

end Engine

namespace Session

open Stateful

def atLevels (s : Session) (level configured : Level) : Session :=
  s.withEngine (s.engine.atLevels level configured)

/-- What a logger of another level would have made of a step. -/
def Outcome.heard (level configured : Level) (action : Step) (o : Outcome) : Outcome :=
  ⟨o.session.atLevels level configured, o.answer, o.records.filter (level.hears action.general)⟩

section

variable {s : Session} {level configured : Level} {action : Step}

theorem outcome_perform_heard (lower : s.engine.level.reaches level = true)
    (keeps : action.setsEngine = false)
    (shown : action.showsEngine = true → configured = s.engine.settings.level) :
    (perform action).outcome (s.atLevels level configured) =
      let done := (perform action).outcome s
      ⟨(done.value.1, done.value.2.atLevels level configured),
        done.records.filter (level.hears action.general)⟩ := by
  cases shows : action.showsEngine with
  | true =>
      cases action with
      | showSettings =>
          obtain rfl := shown rfl
          rfl
      | _ => cases shows
  | false =>
      obtain ⟨result, t, written, writes, same⟩ := steady_perform s.engine keeps shows s
      have own : (perform action).outcome s = _ := same s.engine (.refl s.engine)
      have other := same _ (s.engine.alike_atLevels level configured)
      rw [own, atLevels, other]
      simp only [atLevels, writes.filter lower]
      rfl

theorem step_heard (lower : s.engine.level.reaches level = true) (keeps : action.setsEngine = false)
    (shown : action.showsEngine = true → configured = s.engine.settings.level) :
    (s.atLevels level configured).step action =
      (s.step action).heard level configured action := by
  rw [step, outcome_perform_heard lower keeps shown]
  rfl

theorem engine_step (keeps : action.setsEngine = false) :
    (s.step action).session.engine = s.engine := by
  cases shows : action.showsEngine with
  | true =>
      cases action with
      | showSettings => rfl
      | _ => cases shows
  | false =>
      obtain ⟨result, t, written, -, same⟩ := steady_perform s.engine keeps shows s
      have own : (perform action).outcome s = _ := same s.engine (.refl s.engine)
      rw [step, own]
      rfl

theorem not_warning_installed {settings shown : Settings} {saved : List Settings} {record : Record}
    (written : record ∈ (s.installed settings shown saved).records) : record.severity ≠ .warning := by
  rw [Level.severity_of_mem_write written]
  exact nofun

theorem not_warning_of_setsEngine (sets : action.setsEngine = true) {record : Record}
    (written : record ∈ (s.step action).records) : record.severity ≠ .warning := by
  cases action with
  | putSettings changes =>
      cases made : Settings.ofChanges changes with
      | error failure =>
          rw [step_putSettings_refused made] at written
          cases written
      | ok settings =>
          rw [step_putSettings made] at written
          exact not_warning_installed written
  | resetSettings =>
      rw [step_resetSettings] at written
      exact not_warning_installed written
  | override changes =>
      cases made : s.engine.settings.change changes with
      | error failure =>
          rw [step_override_refused made] at written
          cases written
      | ok settings =>
          rw [step_override made] at written
          exact not_warning_installed written
  | restore =>
      cases saved : s.engine.saved with
      | nil =>
          rw [step_restore_refused saved] at written
          cases written
      | cons settings rest =>
          rw [step_restore saved] at written
          exact not_warning_installed written
  | configureLogger | setLevel => cases written
  | _ => cases sets

theorem not_warning_step (plain : s.engine.settings.strict = false)
    (engine : action.isWarning = false) {record : Record}
    (written : record ∈ (s.step action).records) : record.severity ≠ .warning := by
  cases sets : action.setsEngine with
  | true => exact not_warning_of_setsEngine sets written
  | false =>
      cases shows : action.showsEngine with
      | true =>
          cases action with
          | showSettings => cases written
          | _ => cases shows
      | false =>
          obtain ⟨result, t, records, writes, same⟩ := steady_perform s.engine sets shows s
          have own : (perform action).outcome s = _ := same s.engine (.refl s.engine)
          rw [step, own] at written
          refine writes.not_warning (fun due => ?_) written
          rw [plain, engine] at due
          rcases due with never | never <;> cases never

theorem run_filtered (steps : List Step) (lower : s.engine.level.reaches level = true)
    (keeps : ∀ action ∈ steps, action.setsEngine = false)
    (shown : ∀ action ∈ steps, action.showsEngine = true → configured = s.engine.settings.level) :
    (s.atLevels level configured).run steps =
      List.zipWith (Outcome.heard level configured) steps (s.run steps) := by
  induction steps generalizing s with
  | nil => rfl
  | cons action rest ih =>
      have engine := engine_step (s := s) (keeps action List.mem_cons_self)
      rw [run, run, List.zipWith_cons_cons,
        step_heard lower (keeps action List.mem_cons_self) (shown action List.mem_cons_self)]
      refine congrArg _ (ih ?_ (fun other inside => ?_) fun other inside => ?_)
      · rw [engine]
        exact lower
      · exact keeps other (List.mem_cons_of_mem action inside)
      · rw [engine]
        exact shown other (List.mem_cons_of_mem action inside)

end

/-- Logging never changes a result, and levels do nothing but filter. Steps that do not set the engine
are taken in two sessions that differ in the level of the logger, and in that of the settings if no step
shows them: the answers and failures are the same, the sessions again differ in the levels only, and the
session with the lower level writes those records of the other one that require no more than its level,
in their order. Warnings require the lowest level that writes at all, registrations the detailed one and
debug records the highest. In plain arithmetic no step writes a warning, unless it is one itself. -/
theorem run_heard (s : Session) :
    (∀ (level configured : Level) (steps : List Step), s.engine.level.reaches level = true →
      (∀ action ∈ steps, action.setsEngine = false) →
      (∀ action ∈ steps, action.showsEngine = true → configured = s.engine.settings.level) →
      (s.atLevels level configured).run steps =
        List.zipWith (Outcome.heard level configured) steps (s.run steps)) ∧
      (s.engine.settings.strict = false → ∀ action : Step, action.isWarning = false →
        ∀ record ∈ (s.step action).records, record.severity ≠ .warning) :=
  ⟨fun _ _ steps lower keeps shown => run_filtered steps lower keeps shown,
    fun plain _ engine _ written => not_warning_step plain engine written⟩

/-- A session that logs everything writes eight records when it makes a registry of the built-in
functions, and at the lowest level that writes at all there are none of them. -/
theorem run_heard_registry :
    let s : Session := { engine := { settings := ⟨256, true, .verbose, by decide⟩, level := .verbose } }
    let steps : List Step :=
      [.newRegistry "r" .fresh, .parse "f" (.given "1 / 0"), .log (.info .minimal) "done"]
    (s.atLevels .minimal .silent).run steps =
        List.zipWith (Outcome.heard .minimal .silent) steps (s.run steps) ∧
      ((s.step (.newRegistry "r" .fresh)).records.map Record.severity = List.replicate 8 .info ∧
        ((s.atLevels .minimal .silent).step (.newRegistry "r" .fresh)).records = []) ∧
      ∀ record ∈ (step {} (.parse "f" (.given "1 / 0"))).records, record.severity ≠ .warning := by
  intro s steps
  exact ⟨(run_heard s).1 .minimal .silent steps rfl (by decide) (by decide),
    by decide +kernel +revert, (run_heard {}).2 rfl (.parse "f" (.given "1 / 0")) rfl⟩

end Session

end Formula
