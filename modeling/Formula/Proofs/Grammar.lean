import Mathlib.Data.List.Chain
import Formula.Yard

/-!
The grammar of the infix notation. A phrase is a row of lexemes that the grammar derives, together
with the expression that the derivation writes. Sums and products lean to the left and powers to the
right, and a minus sign in front binds looser than a power and tighter than a product.
-/

set_option autoImplicit false

namespace Formula

/-- The kinds of phrases, from the loosest to the tightest. -/
inductive Category where
  | sum
  | product
  | factor
  | power
  | atom
  deriving DecidableEq

/-- A row of lexemes is a phrase of a category and writes an expression. -/
inductive Phrase : Category → List Lexeme → Expr → Prop
  | sumOfProduct {ts : List Lexeme} {e : Expr} : Phrase .product ts e → Phrase .sum ts e
  | sum {op : BinaryOp} {ts us : List Lexeme} {a b : Expr} :
      op = .add ∨ op = .sub → Phrase .sum ts a → Phrase .product us b →
      Phrase .sum (ts ++ .operator op :: us) (.bin op a b)
  | productOfFactor {ts : List Lexeme} {e : Expr} : Phrase .factor ts e → Phrase .product ts e
  | product {op : BinaryOp} {ts us : List Lexeme} {a b : Expr} :
      op = .mul ∨ op = .div → Phrase .product ts a → Phrase .factor us b →
      Phrase .product (ts ++ .operator op :: us) (.bin op a b)
  | factorOfPower {ts : List Lexeme} {e : Expr} : Phrase .power ts e → Phrase .factor ts e
  | negation {ts : List Lexeme} {a : Expr} :
      Phrase .factor ts a → Phrase .factor (.operator .sub :: ts) (.neg a)
  | powerOfAtom {ts : List Lexeme} {e : Expr} : Phrase .atom ts e → Phrase .power ts e
  | power {ts us : List Lexeme} {a b : Expr} : Phrase .atom ts a → Phrase .factor us b →
      Phrase .power (ts ++ .operator .pow :: us) (.bin .pow a b)
  | number (text : String) :
      Phrase .atom [.number text] (.const (Decimal.readUnsigned text.toList))
  | identifier (name : String) : Phrase .atom [.identifier name] (.ofIdentifier name)
  | group {ts : List Lexeme} {e : Expr} :
      Phrase .sum ts e → Phrase .atom (.leftParen :: ts ++ [.rightParen]) e
  | call (name : String) (arguments : List (List Lexeme × Expr)) :
      (∀ a ∈ arguments, Phrase .sum a.1 a.2) →
      Phrase .atom (.identifier name :: .leftParen ::
          [Lexeme.comma].intercalate (arguments.map Prod.fst) ++ [.rightParen])
        (.call name (arguments.map Prod.snd))

/-- The grammar derives a row of lexemes. -/
def Derivable (c : Category) (ts : List Lexeme) : Prop := ∃ e, Phrase c ts e

namespace Lexeme

/-- The most parentheses open at once in a row of lexemes, `opened` of them in front of it. -/
def deepestOpen (opened : Nat) : List Lexeme → Nat
  | [] => opened
  | .leftParen :: rest => deepestOpen (opened + 1) rest
  | .rightParen :: rest => max opened (deepestOpen (opened - 1) rest)
  | .number _ :: rest | .identifier _ :: rest | .operator _ :: rest | .comma :: rest =>
    deepestOpen opened rest

/-- How deep the parentheses of groups and calls are nested. -/
def nesting (ts : List Lexeme) : Nat := deepestOpen 0 ts

theorem le_deepestOpen (opened : Nat) (ts : List Lexeme) : opened ≤ deepestOpen opened ts := by
  induction ts generalizing opened with
  | nil => exact Nat.le_refl _
  | cons t rest ih =>
      cases t with
      | leftParen => exact Nat.le_of_succ_le (ih (opened + 1))
      | rightParen => exact Nat.le_max_left _ _
      | number _ => exact ih opened
      | identifier _ => exact ih opened
      | operator _ => exact ih opened
      | comma => exact ih opened

/-- With so many parentheses open in front of a row, none is closed in it that is not open, and in the
end none is open. -/
def BalancedBehind (opened : Nat) : List Lexeme → Prop
  | [] => opened = 0
  | .leftParen :: rest => BalancedBehind (opened + 1) rest
  | .rightParen :: rest => 0 < opened ∧ BalancedBehind (opened - 1) rest
  | .number _ :: rest | .identifier _ :: rest | .operator _ :: rest | .comma :: rest =>
    BalancedBehind opened rest

def Balanced (ts : List Lexeme) : Prop := BalancedBehind 0 ts

/-- An operand ends with one of these. -/
def endsOperand : Lexeme → Bool
  | .number _ | .identifier _ | .rightParen => true
  | .operator _ | .leftParen | .comma => false

/-- An operand starts with one of these. -/
def startsOperand : Lexeme → Bool
  | .number _ | .identifier _ | .leftParen => true
  | .operator _ | .rightParen | .comma => false

def isIdentifier : Lexeme → Bool
  | .identifier _ => true
  | _ => false

/-- One operand ends and the next begins with nothing between them. An identifier in front of an
open parenthesis is called and belongs to the same operand. -/
def juxtaposed (t u : Lexeme) : Bool :=
  t.endsOperand && u.startsOperand && !(t.isIdentifier && u == .leftParen)

/-- No operand stands directly behind another one. -/
def Unjuxtaposed (ts : List Lexeme) : Prop := ts.IsChain fun t u => juxtaposed t u = false

instance (ts : List Lexeme) : Decidable (Unjuxtaposed ts) :=
  inferInstanceAs (Decidable (ts.IsChain _))

end Lexeme

end Formula
