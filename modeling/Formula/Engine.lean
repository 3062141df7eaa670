import Formula.Settings

/-!
The engine: the settings in force, the level of the logger, and the overrides that are open.
Putting settings in force sets the logger's level, too; the logger can also be set on its own.
-/

set_option autoImplicit false

namespace Formula

/-- The state that all operations share. -/
structure Engine where
  settings : Settings := .default
  level : Level := Settings.default.level
  /-- The settings to return to, innermost override first. -/
  saved : List Settings := []

namespace Engine

def initial : Engine := {}

instance : Inhabited Engine := ⟨initial⟩

/-- Put settings in force. The record is written at the new level. -/
def install (e : Engine) (s : Settings) : Logged Engine :=
  ⟨{ e with settings := s, level := s.level }, s.level.info .moderate s.summary⟩

def reset (e : Engine) : Logged Engine := e.install .default

/-- Put settings in force that differ from the default ones in some fields. -/
def configure (e : Engine) (changes : Settings.Changes) : Fallible (Logged Engine) :=
  (Settings.ofChanges changes).map e.install

/-- Open an override: replace fields of the settings in force and remember the settings. -/
def override (e : Engine) (changes : Settings.Changes) : Fallible (Logged Engine) :=
  (e.settings.change changes).map fun s =>
    ({ e with saved := e.settings :: e.saved } : Engine).install s

/-- Close the innermost override: put in force what was in force when it was opened. -/
def restore (e : Engine) : Fallible (Logged Engine) :=
  match e.saved with
  | [] => .error (.wordless .noOverride)
  | s :: rest => .ok (({ e with saved := rest } : Engine).install s)

def setLevel (e : Engine) (level : Level) : Engine := { e with level := level }

end Engine

end Formula
