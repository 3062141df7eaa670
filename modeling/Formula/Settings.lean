import Formula.Failure
import Formula.Field
import Formula.Log

/-!
The settings of the engine. They are checked when they are made, so settings that exist are
valid.
-/

set_option autoImplicit false

namespace Formula

structure Settings where
  /-- The depth up to which expressions are parsed. -/
  maxDepth : Nat
  /-- Divisions by zero and overflows are errors. -/
  strict : Bool
  /-- The logging level. -/
  level : Level
  maxDepth_pos : 0 < maxDepth

namespace Settings

def default : Settings := ⟨256, false, .minimal, by decide⟩

instance : Inhabited Settings := ⟨default⟩

/-- Requested values of some of the fields, and the names of fields that there are not. -/
structure Changes where
  unknown : List String := []
  maxDepth : Field Int := .absent
  strict : Field Bool := .absent
  level : Field Level := .absent

/-- Only fields that there are can be requested. -/
def checkNames : List String → Fallible Unit
  | [] => .ok ()
  | _ :: _ => .error (.wordless .unknownSetting)

def checkDepth (current : { depth : Nat // 0 < depth }) :
    Field Int → Fallible { depth : Nat // 0 < depth }
  | .absent => .ok current
  | .unusable => .error (.wrongType .maxDepth)
  | .given n =>
    if h : 0 < n.toNat then .ok ⟨n.toNat, h⟩ else .error (.wrongValue .maxDepth)

/-- A field without a condition beyond its type. -/
def checkField {α : Type} (complaint : WrongType) (current : α) : Field α → Fallible α
  | .absent => .ok current
  | .unusable => .error (.wrongType complaint)
  | .given value => .ok value

/-- Replace fields. Unknown names are refused before any value is looked at; the fields are checked
in their order, and the first fault counts. -/
def change (s : Settings) (changes : Changes) : Fallible Settings := do
  checkNames changes.unknown
  let depth ← checkDepth ⟨s.maxDepth, s.maxDepth_pos⟩ changes.maxDepth
  let strict ← checkField .strictness s.strict changes.strict
  let level ← checkField .level s.level changes.level
  return ⟨depth.val, strict, level, depth.property⟩

def ofChanges (changes : Changes) : Fallible Settings := default.change changes

def switchText (on : Bool) : String := if on then "True" else "False"

def summary (s : Settings) : String :=
  "Engine configuration: max_depth=" ++ toString s.maxDepth ++ ", strict_arithmetic=" ++
    switchText s.strict ++ ", log_level=" ++ s.level.name

end Settings

end Formula
