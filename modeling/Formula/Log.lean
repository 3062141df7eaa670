/-!
Logging. A logger has a level, and a record is written only if the level reaches the one that the
record requires. Computations that log return their records in order beside their value.
-/

set_option autoImplicit false

namespace Formula

/-- How much a logger writes. -/
inductive Level where
  | silent
  | minimal
  | moderate
  | detailed
  | verbose
  deriving DecidableEq, Inhabited

namespace Level

/-- Levels by how much they let through. -/
def rank : Level → Nat
  | .silent => 0
  | .minimal => 1
  | .moderate => 2
  | .detailed => 3
  | .verbose => 4

def name : Level → String
  | .silent => "SILENT"
  | .minimal => "MINIMAL"
  | .moderate => "MODERATE"
  | .detailed => "DETAILED"
  | .verbose => "VERBOSE"

def all : List Level := [.silent, .minimal, .moderate, .detailed, .verbose]

def ofName? (name : String) : Option Level := all.find? fun level => level.name == name

/-- A logger of this level writes records that require the other. -/
def reaches (level required : Level) : Bool := required.rank ≤ level.rank

/-- The number of console handlers that a logger of this level gets. -/
def handlers : Level → Nat
  | .silent => 0
  | _ => 1

end Level

inductive Severity where
  | debug
  | info
  | warning
  deriving DecidableEq, Inhabited

def Severity.name : Severity → String
  | .debug => "DEBUG"
  | .info => "INFO"
  | .warning => "WARNING"

/-- A record as it reached the logger. -/
structure Record where
  severity : Severity
  text : String
  deriving DecidableEq, Inhabited

namespace Level

/-- Write a record if the level reaches what it requires. -/
def write (level required : Level) (record : Record) : List Record :=
  if level.reaches required then [record] else []

/-- General information; what it requires is up to the caller. -/
def info (level required : Level) (text : String) : List Record :=
  level.write required ⟨.info, text⟩

/-- Warnings are written at every level but `silent`. -/
def warning (level : Level) (text : String) : List Record :=
  level.write .minimal ⟨.warning, text⟩

/-- Registry activity. -/
def detail (level : Level) (text : String) : List Record :=
  level.write .detailed ⟨.info, text⟩

/-- Internals of the parser and the simplifier. -/
def debug (level : Level) (text : String) : List Record :=
  level.write .verbose ⟨.debug, "DEBUG: " ++ text⟩

end Level

/-- A value with the records that were written on the way to it. -/
structure Logged (α : Type) where
  value : α
  records : List Record := []

namespace Logged

variable {α β : Type}

protected def pure (value : α) : Logged α := ⟨value, []⟩

/-- The records of the second step follow those of the first. -/
protected def bind (x : Logged α) (f : α → Logged β) : Logged β :=
  ⟨(f x.value).value, x.records ++ (f x.value).records⟩

instance : Monad Logged where
  pure := Logged.pure
  bind := Logged.bind

def mapValue (f : α → β) (x : Logged α) : Logged β := ⟨f x.value, x.records⟩

end Logged

end Formula
