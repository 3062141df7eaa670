import Formula.Diagnostic
import Formula.Operator
import Formula.Text.Quoted
import Formula.Decimal.Layout

/-!
Failures by cause. Each cause carries what its text mentions; the texts themselves are made here
and nowhere else.
-/

set_option autoImplicit false

namespace Formula

/-- Why a text is no expression. Positions count characters from zero. -/
inductive Malformation where
  | illegalCharacter (c : Char) (position : Nat)
  | malformedNumber (text : String) (position : Nat)
  | tooManyOpen (limit : Int) (position : Nat)
  | commaOutsideCall (position : Nat)
  | emptyArgument (position : Nat)
  | crowdedArgument (position : Nat)
  | unmatchedClose (position : Nat)
  | emptyGroup (position : Nat)
  | crowdedGroup (position : Nat)
  | fewArguments (name : String) (position : Nat)
  | manyArguments (name : String) (position : Nat)
  | missingOperand (position : Nat)
  | unclosedOpen (position : Nat)
  | danglingCall (name : String) (position : Nat)
  | unclosedCall (name : String) (position : Nat)
  | emptyExpression
  | crowdedExpression (values : Nat)
  | tooDeep (depth : Nat) (limit : Int)
  deriving DecidableEq

namespace Malformation

def code : Malformation → Code
  | .illegalCharacter .. => .invalidCharacter
  | .commaOutsideCall .. | .crowdedArgument .. | .crowdedGroup .. | .manyArguments ..
  | .crowdedExpression .. => .missingOperator
  | .malformedNumber .. | .emptyArgument .. | .emptyGroup .. | .fewArguments ..
  | .missingOperand .. | .emptyExpression => .missingValue
  | .unmatchedClose .. | .unclosedOpen .. | .unclosedCall .. => .unmatchedParenthesis
  | .tooManyOpen .. | .tooDeep .. => .nestingTooDeep
  | .danglingCall .. => .unknownSyntaxError

/-- The place of a cause in the text, if it has one. -/
def position? : Malformation → Option Nat
  | .illegalCharacter _ p | .malformedNumber _ p | .tooManyOpen _ p | .commaOutsideCall p
  | .emptyArgument p | .crowdedArgument p | .unmatchedClose p | .emptyGroup p | .crowdedGroup p
  | .fewArguments _ p | .manyArguments _ p | .missingOperand p | .unclosedOpen p
  | .danglingCall _ p | .unclosedCall _ p => some p
  | .emptyExpression | .crowdedExpression _ | .tooDeep .. => none

/-- What happened, without the place. -/
def detail : Malformation → String
  | .illegalCharacter c _ => "illegal character " ++ Text.quoted c.toString
  | .malformedNumber text _ => "malformed number '" ++ text ++ "'"
  | .tooManyOpen limit _ => "more than " ++ toString limit ++ " nested parentheses"
  | .commaOutsideCall _ => "comma outside function call"
  | .emptyArgument _ => "empty function argument"
  | .crowdedArgument _ => "missing operator in function argument"
  | .unmatchedClose _ => "unmatched ')'"
  | .emptyGroup _ => "empty parentheses"
  | .crowdedGroup _ => "missing operator inside parentheses"
  | .fewArguments name _ | .manyArguments name _ => "malformed arguments for " ++ name
  | .missingOperand _ => "operator is missing an operand"
  | .unclosedOpen _ => "unclosed '('"
  | .danglingCall name _ => "dangling call " ++ name
  | .unclosedCall name _ => "missing ')' for function call " ++ name
  | .emptyExpression => "empty expression"
  | .crowdedExpression values => toString values ++ " values without an operator between them"
  | .tooDeep depth limit => "expression tree depth " ++ toString depth ++
      " exceeds the limit of " ++ toString limit ++
      " (operator chains count as well as parenthesis nesting)"

def diagnostic (cause : Malformation) : Diagnostic :=
  .malformed (some cause.code) cause.detail (cause.position?.map Int.ofNat)

end Malformation

/-- Whatever can overflow: an operator between two values, or a function. -/
inductive Operation where
  | operator (op : BinaryOp)
  | function (name : String)
  deriving DecidableEq

def Operation.text : Operation → String
  | .operator op => "'" ++ op.text ++ "'"
  | .function name => name ++ "()"

/-- What strict arithmetic refuses. -/
inductive ArithmeticFault where
  | zeroDivision (op : BinaryOp) (left right : Float)
  | overflow (operation : Operation) (result : Float)

def ArithmeticFault.diagnostic : ArithmeticFault → Diagnostic
  | .zeroDivision op left right => ⟨.zeroDivision, some .divisionByZero,
      Decimal.plainText left ++ " " ++ op.text ++ " " ++ Decimal.plainText right⟩
  | .overflow operation result => ⟨.overflow, some .floatingPointOverflow,
      operation.text ++ " overflowed to " ++ Decimal.plainText result⟩

/-- What should have been of another type. -/
inductive WrongType where
  | text
  | root
  | settings
  | maxDepth
  | strictness
  | level
  | definition
  | functionName
  | arity
  | evaluator
  | derivative
  deriving DecidableEq

def WrongType.demand : WrongType → String
  | .text => "Expression text must be a string"
  | .root => "Expression root must be a Node"
  | .settings => "config must be an EngineConfig"
  | .maxDepth => "max_depth must be an integer"
  | .strictness => "strict_arithmetic must be a boolean"
  | .level => "log_level must be a LogLevel"
  | .definition => "definition must be a FunctionDefinition"
  | .functionName => "name must be a non-empty string"
  | .arity => "arity must be an integer"
  | .evaluator => "evaluator must be callable"
  | .derivative => "derivative must be callable or None"

/-- What had the right type and an impossible value. -/
inductive WrongValue where
  | maxDepth
  | arity
  | variableName
  | calledName
  | unknownBinaryOperator (symbol : String)
  | unknownUnaryOperator (symbol : String)
  | notBinary (op : Operator)
  | notUnary (op : Operator)
  | traversalOrder (order : String)
  | refused (reason : String)
  deriving DecidableEq

def WrongValue.text : WrongValue → String
  | .maxDepth => "max_depth must be a positive integer"
  | .arity => "arity must be -1 (variadic) or non-negative"
  | .variableName => "Variable name must be a non-empty string"
  | .calledName => "Function name must be a non-empty string"
  | .unknownBinaryOperator symbol => "Unknown binary operator: " ++ symbol
  | .unknownUnaryOperator symbol => "Unknown unary operator: " ++ symbol
  | .notBinary op => "Not a binary operator: " ++ op.name
  | .notUnary op => "Not a unary operator: " ++ op.name
  | .traversalOrder order => "Invalid traversal_order: " ++ order
  | .refused reason => reason

/-- Failures that carry no text. -/
inductive Wordless where
  /-- An evaluator or a derivative rule read an argument that is not there. -/
  | missingArgument
  /-- A derivative rule was given a number of arguments that it does not take. -/
  | argumentCount
  /-- A code that no operator has. -/
  | operatorCode
  /-- A code that its family does not have. -/
  | errorCode
  /-- An integer beyond the range of doubles. -/
  | numberTooLarge
  /-- A text that is no number. -/
  | unreadableNumber
  /-- A name that no logging level and no operator has. -/
  | unknownName
  /-- A setting that there is not. -/
  | unknownSetting
  /-- A binding written to the read-only context. -/
  | readOnlyBinding
  /-- Functions installed into the read-only context. -/
  | readOnlyInstall
  /-- Something other than a definition offered to a frozen registry. -/
  | namelessDefinition
  /-- A slot that was never filled. -/
  | emptySlot
  /-- An override left that was never entered. -/
  | noOverride
  /-- A step function applied to other than one term. -/
  | stepArguments
  /-- Derivative rules nested beyond the limit. -/
  | rulesTooDeep
  /-- The stacks of the parser disagree. -/
  | stacksDisagree
  deriving DecidableEq

/-- Everything that can go wrong. -/
inductive Failure where
  | malformed (cause : Malformation)
  | arithmetic (fault : ArithmeticFault)
  | unboundVariable (name : String)
  | unknownFunction (name : String)
  | arityMismatch (name : String) (expected actual : Nat)
  | undifferentiable (name : String)
  | frozen (name : String)
  | wrongType (what : WrongType)
  | wrongValue (what : WrongValue)
  | wordless (what : Wordless)

namespace Failure

/-- The report of a failure of the engine itself. -/
def diagnostic? : Failure → Option Diagnostic
  | .malformed cause => some cause.diagnostic
  | .arithmetic fault => some fault.diagnostic
  | .unboundVariable name => some (.missing (some .itemNotFound) name "variable")
  | .unknownFunction name => some (.missing (some .itemNotFound) name "function")
  | .arityMismatch name expected actual => some (.wrongArity name expected actual)
  | .undifferentiable name => some (.noDerivative name)
  | .frozen name => some (.frozen name)
  | .wrongType _ | .wrongValue _ | .wordless _ => none

def message? (failure : Failure) : Option String :=
  match failure with
  | .wrongType what => some what.demand
  | .wrongValue what => some what.text
  | _ => failure.diagnostic?.map Diagnostic.text

/-- Strict arithmetic was the cause. -/
def isArithmetic : Failure → Bool
  | .arithmetic _ => true
  | _ => false

/-- A name stood for nothing. -/
def isLookup : Failure → Bool
  | .unboundVariable _ | .unknownFunction _ => true
  | _ => false

end Failure

/-- The result of a computation that may fail. -/
abbrev Fallible (α : Type) := Except Failure α

end Formula
