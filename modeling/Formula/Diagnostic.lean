/-!
Diagnostics: what a failure of the engine says of itself. The text starts with the kind of the
failure, so that it can be told apart even where only the text is kept.
-/

set_option autoImplicit false

namespace Formula

inductive Kind where
  | engine
  | grammar
  | overflow
  | zeroDivision
  | lookup
  | arity
  | differentiation
  | registry
  deriving DecidableEq

namespace Kind

def label : Kind → String
  | .engine => "ENGINE"
  | .grammar => "SYNTAX"
  | .overflow => "OVERFLOW"
  | .zeroDivision => "ZERO DIVISION"
  | .lookup => "LOOKUP"
  | .arity => "ARITY"
  | .differentiation => "DIFFERENTIATION"
  | .registry => "REGISTRY"

def number : Kind → Nat
  | .engine => 0
  | .grammar => 1
  | .overflow => 2
  | .zeroDivision => 3
  | .lookup => 4
  | .arity => 5
  | .differentiation => 6
  | .registry => 7

end Kind

/-- The codes come in four families, each numbered from zero. -/
inductive CodeFamily where
  | grammar
  | overflow
  | zeroDivision
  | lookup
  deriving DecidableEq

/-- What exactly failed. -/
inductive Code where
  | invalidCharacter
  | missingOperator
  | missingValue
  | unmatchedParenthesis
  | nestingTooDeep
  | unknownSyntaxError
  | arithmeticOverflow
  | integerOverflow
  | floatingPointOverflow
  | unknownOverflowError
  | divisionByZero
  | unknownZeroDivisionError
  | itemNotFound
  | unknownLookupError
  deriving DecidableEq

def CodeFamily.codes : CodeFamily → List Code
  | .grammar => [.invalidCharacter, .missingOperator, .missingValue, .unmatchedParenthesis,
      .nestingTooDeep, .unknownSyntaxError]
  | .overflow => [.arithmeticOverflow, .integerOverflow, .floatingPointOverflow,
      .unknownOverflowError]
  | .zeroDivision => [.divisionByZero, .unknownZeroDivisionError]
  | .lookup => [.itemNotFound, .unknownLookupError]

namespace Code

def ofNumber? (family : CodeFamily) : Int → Option Code
  | .ofNat n => family.codes[n]?
  | .negSucc _ => none

def family : Code → CodeFamily
  | .invalidCharacter | .missingOperator | .missingValue | .unmatchedParenthesis
  | .nestingTooDeep | .unknownSyntaxError => .grammar
  | .arithmeticOverflow | .integerOverflow | .floatingPointOverflow
  | .unknownOverflowError => .overflow
  | .divisionByZero | .unknownZeroDivisionError => .zeroDivision
  | .itemNotFound | .unknownLookupError => .lookup

def number (code : Code) : Nat := code.family.codes.idxOf code

def name : Code → String
  | .invalidCharacter => "invalid-character"
  | .missingOperator => "missing-operator"
  | .missingValue => "missing-value"
  | .unmatchedParenthesis => "unmatched-parenthesis"
  | .nestingTooDeep => "nesting-too-deep"
  | .unknownSyntaxError => "unknown-syntax-error"
  | .arithmeticOverflow => "arithmetic-overflow"
  | .integerOverflow => "integer-overflow"
  | .floatingPointOverflow => "floating-point-overflow"
  | .unknownOverflowError => "unknown-overflow-error"
  | .divisionByZero => "division-by-zero"
  | .unknownZeroDivisionError => "unknown-zero-division-error"
  | .itemNotFound => "item-not-found"
  | .unknownLookupError => "unknown-lookup-error"

end Code

/-- A kind of failure, its code if it has one, and the particulars. -/
structure Diagnostic where
  kind : Kind
  code : Option Code
  detail : String
  deriving DecidableEq

namespace Diagnostic

def text (d : Diagnostic) : String :=
  match d.code with
  | none => d.kind.label ++ " ERROR: " ++ d.detail
  | some code =>
    d.kind.label ++ " ERROR: " ++ code.name ++ " (err " ++ toString d.kind.number ++ ", code " ++
      toString code.number ++ ")" ++ (if d.detail = "" then "" else ": " ++ d.detail)

/-- Particulars of a place in a text. -/
def located (detail : String) (position : Option Int) : String :=
  match position with
  | none => detail
  | some p => (if detail = "" then "" else detail ++ " ") ++ "at position " ++ toString p

/-- A text that is no expression. -/
def malformed (code : Option Code) (detail : String) (position : Option Int) : Diagnostic :=
  ⟨.grammar, code, located detail position⟩

/-- A name that stands for nothing. -/
def missing (code : Option Code) (name what : String) : Diagnostic :=
  ⟨.lookup, code, "no " ++ what ++ " named '" ++ name ++ "'"⟩

def wrongArity (name : String) (expected actual : Int) : Diagnostic :=
  ⟨.arity, none, "arity mismatch for " ++ name ++ ": expected " ++ toString expected ++
    ", got " ++ toString actual⟩

def noDerivative (name : String) : Diagnostic :=
  ⟨.differentiation, none, "no derivative defined for function: " ++ name⟩

def frozen (name : String) : Diagnostic :=
  ⟨.registry, none, "cannot register '" ++ name ++ "': registry is frozen"⟩

end Diagnostic

end Formula
