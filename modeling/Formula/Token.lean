import Formula.Operator

/-!
Tokens: the smallest pieces of an expression's text that have a meaning.
-/

set_option autoImplicit false

namespace Formula

/-- What a token says. Numbers and identifiers keep their text. -/
inductive Lexeme where
  | number (text : String)
  | identifier (name : String)
  | operator (op : BinaryOp)
  | leftParen
  | rightParen
  | comma
  deriving DecidableEq, Inhabited

namespace Lexeme

def text : Lexeme → String
  | .number text => text
  | .identifier name => name
  | .operator op => op.text
  | .leftParen => "("
  | .rightParen => ")"
  | .comma => ","

def className : Lexeme → String
  | .number _ => "NUMBER"
  | .identifier _ => "IDENTIFIER"
  | .operator _ => "OPERATOR"
  | .leftParen => "LPAREN"
  | .rightParen => "RPAREN"
  | .comma => "COMMA"

/-- The lexemes of one sign. -/
def ofSign? (c : Char) : Option Lexeme :=
  if c = '(' then some .leftParen
  else if c = ')' then some .rightParen
  else if c = ',' then some .comma
  else (BinaryOp.ofSymbol? c).map .operator

end Lexeme

/-- A lexeme and the number of characters in front of it. -/
structure Token where
  lexeme : Lexeme
  position : Nat
  deriving DecidableEq, Inhabited

namespace Token

def text (t : Token) : String := t.lexeme.text

/-- The number of characters up to the end of the last token. -/
def endOf (tokens : List Token) : Nat :=
  match tokens.getLast? with
  | none => 0
  | some t => t.position + t.text.length

end Token

end Formula
