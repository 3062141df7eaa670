import Formula.Proofs.Session.Levels
import Formula.Proofs.Settings

/-!
Overrides in programs. A program takes steps and goes on as their answers tell it, and in a block it
overrides settings: when its body has ended, be it with an exception, the override is closed. Whatever a
body does, it leaves the stack of open overrides as it was, so that the settings of the entry are found
again. The level of the logger stays in step with the settings unless it is set on its own.
-/

set_option autoImplicit false

namespace Formula.Session

/-! ### What steps do to the engine -/

def Step.isHalf : Step → Bool
  | .override _ | .restore => true
  | _ => false

/-- The step sets the level of the logger and not the settings. -/
def Step.setsLogger : Step → Bool
  | .configureLogger _ | .setLevel _ => true
  | _ => false

/-- What a step makes of the engine. -/
inductive Turns (e : Engine) : Step → Engine → Prop
  | kept (action : Step) : Turns e action e
  | putSettings {changes : Settings.Changes} {settings : Settings}
      (made : Settings.ofChanges changes = .ok settings) :
      Turns e (.putSettings changes) ⟨settings, settings.level, e.saved⟩
  | resetSettings : Turns e .resetSettings ⟨.default, Settings.default.level, e.saved⟩
  | override {changes : Settings.Changes} {settings : Settings}
      (made : e.settings.change changes = .ok settings) :
      Turns e (.override changes) ⟨settings, settings.level, e.settings :: e.saved⟩
  | restore {settings : Settings} {rest : List Settings} (saved : e.saved = settings :: rest) :
      Turns e .restore ⟨settings, settings.level, rest⟩
  | configureLogger (level : Level) : Turns e (.configureLogger level) ⟨e.settings, level, e.saved⟩
  | setLevel (level : Level) : Turns e (.setLevel level) ⟨e.settings, level, e.saved⟩

theorem turns_step (s : Session) (action : Step) :
    Turns s.engine action (s.step action).session.engine := by
  cases sets : action.setsEngine with
  | false =>
      rw [engine_step sets]
      exact .kept action
  | true =>
      cases action with
      | putSettings changes =>
          cases made : Settings.ofChanges changes with
          | error failure =>
              rw [step_putSettings_refused made]
              exact .kept _
          | ok settings =>
              rw [step_putSettings made]
              exact .putSettings made
      | override changes =>
          cases made : s.engine.settings.change changes with
          | error failure =>
              rw [step_override_refused made]
              exact .kept _
          | ok settings =>
              rw [step_override made]
              exact .override made
      | restore =>
          cases saved : s.engine.saved with
          | nil =>
              rw [step_restore_refused saved]
              exact .kept _
          | cons settings rest =>
              rw [step_restore saved]
              exact .restore saved
      | resetSettings =>
          rw [step_resetSettings]
          exact .resetSettings
      | configureLogger level => exact .configureLogger level
      | setLevel level => exact .setLevel level
      | _ => cases sets

section

variable {s : Session} {action : Step}

theorem saved_step (whole : action.isHalf = false) :
    (s.step action).session.engine.saved = s.engine.saved := by
  have turns := turns_step s action
  generalize (s.step action).session.engine = next at turns
  cases turns with
  | override | restore => cases whole
  | _ => rfl

/-- A step that does not set the logger on its own keeps its level in step with the settings. -/
theorem level_step (apart : action.setsLogger = false)
    (agree : s.engine.level = s.engine.settings.level) :
    (s.step action).session.engine.level = (s.step action).session.engine.settings.level := by
  have turns := turns_step s action
  generalize (s.step action).session.engine = next at turns ⊢
  cases turns with
  | kept => exact agree
  | configureLogger | setLevel => cases apart
  | _ => rfl

end

/-! ### Programs -/

/-- A program ends with a value or an exception, or it takes a step and goes on with the answer, be it a
failure, or it runs a block under an override and goes on with what came of it: the failure of the
override itself, or else the result of the body. The body is given the settings that it runs under. -/
inductive Program (ε α : Type) where
  | finish (result : Except ε α)
  | take (action : Step) (whole : action.isHalf = false) (next : Fallible Answer → Program ε α)
  | block (changes : Settings.Changes) (body : Settings → Program ε α)
      (next : Fallible (Except ε α) → Program ε α)

/-- A step that was taken, with its outcome. -/
structure Taken where
  action : Step
  outcome : Outcome

/-- A block that was left: the session in front of it, the session in which its body ended, and the
outcome of leaving. -/
structure Exit where
  before : Session
  inside : Session
  left : Outcome

/-- What a program came to, the session behind it, the steps that were taken, and the blocks that were
left. -/
structure Execution (ε α : Type) where
  result : Except ε α
  session : Session
  taken : List Taken := []
  exits : List Exit := []

namespace Execution

variable {ε α : Type}

/-- Steps that were taken and blocks that were left before come first. -/
def following (x : Execution ε α) (taken : List Taken) (exits : List Exit) : Execution ε α :=
  { x with taken := taken ++ x.taken, exits := exits ++ x.exits }

end Execution

/-- Steps that were taken one after the other, from one session to another. -/
inductive Leads : Session → List Taken → Session → Prop
  | nil (s : Session) : Leads s [] s
  | cons {s t : Session} {rest : List Taken} (action : Step)
      (later : Leads (s.step action).session rest t) : Leads s (⟨action, s.step action⟩ :: rest) t

namespace Leads

variable {s t : Session} {taken : List Taken}

theorem append {u : Session} {more : List Taken} (earlier : Leads s taken t)
    (later : Leads t more u) : Leads s (taken ++ more) u := by
  induction earlier with
  | nil => exact later
  | cons action _ ih => exact .cons action (ih later)

theorem run_eq (leads : Leads s taken t) :
    s.run (taken.map Taken.action) = taken.map Taken.outcome := by
  induction leads with
  | nil => rfl
  | cons action _ ih => exact congrArg _ ih

/-- If none of them sets the logger on its own, its level stays in step with the settings. -/
theorem level (leads : Leads s taken t) (agree : s.engine.level = s.engine.settings.level)
    (apart : ∀ one ∈ taken, one.action.setsLogger = false) {one : Taken} (inside : one ∈ taken) :
    one.outcome.session.engine.level = one.outcome.session.engine.settings.level := by
  induction leads with
  | nil => cases inside
  | cons action _ ih =>
      have next := level_step (apart _ List.mem_cons_self) agree
      rcases List.mem_cons.1 inside with rfl | later
      · exact next
      · exact ih next (fun other among => apart other (List.mem_cons_of_mem _ among)) later

end Leads

namespace Program

variable {ε α : Type}

/-- Run a program. A block whose override is refused is not entered; any other one is left, whatever its
body came to. -/
def run : Program ε α → Session → Execution ε α
  | .finish result, s => ⟨result, s, [], []⟩
  | .take action _ next, s =>
    let outcome := s.step action
    ((next outcome.answer).run outcome.session).following [⟨action, outcome⟩] []
  | .block changes body next, s =>
    let entered := s.step (.override changes)
    match entered.answer with
    | .error failure =>
      ((next (.error failure)).run entered.session).following [⟨.override changes, entered⟩] []
    | .ok _ =>
      let x := (body entered.session.engine.settings).run entered.session
      let left := x.session.step .restore
      ((next (.ok x.result)).run left.session).following
        (⟨.override changes, entered⟩ :: x.taken ++ [⟨.restore, left⟩])
        (x.exits ++ [⟨s, x.session, left⟩])

theorem run_block_refused {s : Session} {changes : Settings.Changes} {failure : Failure}
    (refused : s.engine.settings.change changes = .error failure)
    (body : Settings → Program ε α) (next : Fallible (Except ε α) → Program ε α) :
    (block changes body next).run s =
      ((next (.error failure)).run s).following [⟨.override changes, s, .error failure, []⟩] [] := by
  simp only [run, step_override_refused refused]

def entry (s : Session) (settings : Settings) : Session :=
  s.withEngine ⟨settings, settings.level, s.engine.settings :: s.engine.saved⟩

theorem run_block {s : Session} {changes : Settings.Changes} {settings : Settings}
    (made : s.engine.settings.change changes = .ok settings)
    (body : Settings → Program ε α) (next : Fallible (Except ε α) → Program ε α) :
    (block changes body next).run s =
      let x := (body settings).run (entry s settings)
      let left := x.session.step .restore
      ((next (.ok x.result)).run left.session).following
        (⟨.override changes, s.installed settings settings (s.engine.settings :: s.engine.saved)⟩ ::
          x.taken ++ [⟨.restore, left⟩])
        (x.exits ++ [⟨s, x.session, left⟩]) := by
  simp only [run, step_override made]
  rfl

/-- A program leaves the stack of open overrides as it was. -/
theorem saved_run (p : Program ε α) (s : Session) :
    (p.run s).session.engine.saved = s.engine.saved := by
  induction p generalizing s with
  | finish result => rfl
  | take action whole next rest =>
      exact (rest _ _).trans (saved_step whole)
  | block changes body next inner rest =>
      cases made : s.engine.settings.change changes with
      | error failure =>
          rw [run_block_refused made]
          exact rest _ s
      | ok settings =>
          rw [run_block made]
          -- The body leaves the saved settings on top, whatever it came to, and the closing step takes them.
          have stack := inner settings (entry s settings)
          refine (rest _ _).trans ?_
          rw [step_restore stack]
          rfl

/-- A block is left with the settings in force that it was entered with, whatever its body came to, and
the result of the body goes on to what is behind the block. -/
theorem run_block_restored {s : Session} {changes : Settings.Changes} {settings : Settings}
    (made : s.engine.settings.change changes = .ok settings)
    (body : Settings → Program ε α) (next : Fallible (Except ε α) → Program ε α) :
    (block changes body next).run s =
      let x := (body settings).run (entry s settings)
      let left := x.session.installed s.engine.settings s.engine.settings s.engine.saved
      ((next (.ok x.result)).run left.session).following
        (⟨.override changes, s.installed settings settings (s.engine.settings :: s.engine.saved)⟩ ::
          x.taken ++ [⟨.restore, left⟩])
        (x.exits ++ [⟨s, x.session, left⟩]) := by
  have stack := saved_run (body settings) (entry s settings)
  simp only [run_block made, step_restore stack]

/-- Every block that a program leaves is left with the settings in force that it was entered with. -/
theorem left_of_mem_exits (p : Program ε α) (s : Session) {exit : Exit}
    (inside : exit ∈ (p.run s).exits) :
    exit.left = exit.inside.installed exit.before.engine.settings exit.before.engine.settings
      exit.before.engine.saved := by
  induction p generalizing s with
  | finish result => cases inside
  | take action whole next rest => exact rest _ _ inside
  | block changes body next inner rest =>
      cases made : s.engine.settings.change changes with
      | error failure =>
          rw [run_block_refused made] at inside
          exact rest _ s inside
      | ok settings =>
          simp only [run_block_restored made, Execution.following, List.mem_append,
            List.mem_singleton] at inside
          rcases inside with (within | rfl) | behind
          · exact inner settings _ within
          · rfl
          · exact rest _ _ behind

theorem leads_run (p : Program ε α) (s : Session) : Leads s (p.run s).taken (p.run s).session := by
  induction p generalizing s with
  | finish result => exact .nil s
  | take action whole next rest => exact .cons action (rest _ _)
  | block changes body next inner rest =>
      cases made : s.engine.settings.change changes with
      | error failure =>
          have entered := step_override_refused made
          rw [run_block_refused made, ← entered]
          refine .cons _ ?_
          rw [entered]
          exact rest _ s
      | ok settings =>
          have entered := step_override made
          rw [run_block made, ← entered]
          refine .append (.cons _ (.append ?_ (.cons _ (.nil _)))) (rest _ _)
          rw [entered]
          exact inner settings (entry s settings)

end Program

/-- Overrides nest, and leaving one restores the settings. For any program, whatever its steps, answers
and exceptions are: its steps are a run of the session; every block that is left, be it at the end of its
body or by an exception, is left with the settings in force that it was entered with, and the logger at
their level; requested settings with a fault fail with the first one, before anything is changed or
written, and a block that requests them is not entered, while others are put in force, in a block until
its body has come to a result, whichever that is; and as long as no step sets the logger on its own, its
level is that of the settings after every step. -/
theorem run_restores {ε α : Type} (p : Program ε α) (s : Session) :
    s.run ((p.run s).taken.map Taken.action) = (p.run s).taken.map Taken.outcome ∧
      (∀ exit ∈ (p.run s).exits,
        exit.left.answer = .ok (.settings exit.before.engine.settings) ∧
          exit.left.session = exit.inside.withEngine ⟨exit.before.engine.settings,
            exit.before.engine.settings.level, exit.before.engine.saved⟩) ∧
      (∀ (t : Session) (changes : Settings.Changes) (failure : Failure),
        changes.fault? = some failure →
          t.step (.putSettings changes) = ⟨t, .error failure, []⟩ ∧
            ∀ (body : Settings → Program ε α) (next : Fallible (Except ε α) → Program ε α),
              (Program.block changes body next).run t =
                ((next (.error failure)).run t).following
                  [⟨.override changes, t, .error failure, []⟩] []) ∧
      (∀ (t : Session) (changes : Settings.Changes), changes.fault? = none →
        (∃ settings, changes.Meets .default settings ∧
            t.step (.putSettings changes) = t.installed settings t.engine.settings t.engine.saved) ∧
          ∃ settings, changes.Meets t.engine.settings settings ∧
            t.step (.override changes) =
                t.installed settings settings (t.engine.settings :: t.engine.saved) ∧
              ∀ (body : Settings → Program ε α) (next : Fallible (Except ε α) → Program ε α),
                let x := (body settings).run (t.step (.override changes)).session
                let left := x.session.installed t.engine.settings t.engine.settings t.engine.saved
                (Program.block changes body next).run t =
                  ((next (.ok x.result)).run left.session).following
                    (⟨.override changes, t.step (.override changes)⟩ ::
                      x.taken ++ [⟨.restore, left⟩])
                    (x.exits ++ [⟨t, x.session, left⟩])) ∧
      (∀ t : Session, t.step .putOther = ⟨t, .error (.wrongType .settings), []⟩) ∧
      (s.engine.level = s.engine.settings.level →
        (∀ one ∈ (p.run s).taken, one.action.setsLogger = false) →
          ∀ one ∈ (p.run s).taken,
            one.outcome.session.engine.level = one.outcome.session.engine.settings.level) := by
  refine ⟨(p.leads_run s).run_eq, fun exit inside => ?_, fun t changes failure fault => ?_,
    fun t changes sound => ⟨?_, ?_⟩, fun t => rfl,
    fun agree apart one inside => (p.leads_run s).level agree apart inside⟩
  · rw [p.left_of_mem_exits s inside]
    exact ⟨rfl, rfl⟩
  · refine ⟨step_putSettings_refused (Settings.change_of_fault fault), fun body next => ?_⟩
    exact Program.run_block_refused (Settings.change_of_fault fault) body next
  · obtain ⟨settings, made, meets⟩ := Settings.change_of_sound (s := .default) sound
    exact ⟨settings, meets, step_putSettings made⟩
  · obtain ⟨settings, made, meets⟩ := Settings.change_of_sound (s := t.engine.settings) sound
    refine ⟨settings, meets, step_override made, fun body next => ?_⟩
    rw [step_override made]
    exact Program.run_block_restored made body next

/-- A block in a block, with settings replaced in between, and an exception that is raised in the inner
one and caught behind the outer one. Both of them are left, and the settings of the beginning are in
force again. -/
theorem run_restores_exception :
    let inner : Program String Unit :=
      .block { level := .given .silent } (fun _ => .finish (.error "interrupted"))
        fun _ => .finish (.error "interrupted")
    let p : Program String Unit :=
      .block { strict := .given true }
        (fun _ => .take (.putSettings { maxDepth := .given 10 }) rfl fun _ => inner)
        fun _ => .finish (.ok ())
    let x := p.run {}
    let zero : Settings.Changes := { maxDepth := .given 0 }
    x.exits.map (fun exit => (exit.before.engine.settings.maxDepth, exit.inside.engine.level)) =
        [(10, .silent), (256, .minimal)] ∧
      (∀ exit ∈ x.exits, exit.left.answer = .ok (.settings exit.before.engine.settings)) ∧
      zero.fault? = some (.wrongValue .maxDepth) ∧
      step {} (.putSettings zero) = ⟨{}, .error (.wrongValue .maxDepth), []⟩ ∧
      (∃ settings, Settings.Changes.Meets { strict := .given true } .default settings ∧
        step {} (.putSettings { strict := .given true }) = installed {} settings .default []) ∧
      (∀ one ∈ x.taken, one.action.setsLogger = false) ∧
      ∀ one ∈ x.taken,
        one.outcome.session.engine.level = one.outcome.session.engine.settings.level := by
  intro inner p x zero
  have apart : ∀ one ∈ x.taken, one.action.setsLogger = false := by decide +kernel +revert
  refine ⟨by decide +kernel +revert, ?_⟩
  obtain ⟨-, restored, refused, sound, -, level⟩ := run_restores p {}
  exact ⟨fun exit inside => (restored exit inside).1, rfl, (refused {} zero _ rfl).1,
    (sound {} _ rfl).1, apart, level rfl apart⟩

end Formula.Session
