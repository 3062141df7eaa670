import Formula.Expr.Render
import Formula.Proofs.Decimal.Text
import Formula.Proofs.Expr.Nodes
import Formula.Proofs.Grammar

/-!
What a rendered expression reads as. The lexemes of the text are a phrase of the grammar, and the
expression of that phrase is the rendered one up to three things: a constant below zero becomes a
negation, a name that stands for a number becomes the number, and a minus sign in front of the base
of a power ends up in front of the power.
-/

set_option autoImplicit false

namespace Formula.Expr

open Decimal (isBelowZero sizeChars)

def isSigned : Expr → Bool
  | .const value => isBelowZero value
  | .neg _ => true
  | .var _ | .bin .. | .call .. => false

mutual

def written : Expr → List Lexeme
  | .const value =>
    if isBelowZero value then [.operator .sub, .number (String.ofList (sizeChars value))]
    else [.number (String.ofList (sizeChars value))]
  | .var name => [.identifier name]
  | .bin op left right =>
    .leftParen :: (written left ++ .operator op :: written right) ++ [.rightParen]
  | .neg operand => .operator .sub :: (.leftParen :: written operand ++ [.rightParen])
  | .call name arguments =>
    .identifier name :: .leftParen :: writtenArguments arguments ++ [.rightParen]

def writtenArguments : List Expr → List Lexeme
  | [] => []
  | [e] => written e
  | e :: rest => written e ++ .comma :: writtenArguments rest

end

/-- An operation between two operands that were read. A sign in front of the base of a power stands
in front of the power. -/
def rejoin (op : BinaryOp) (signed : Bool) (left right : Expr) : Expr :=
  match op, signed, left with
  | .pow, true, .neg base => .neg (.bin .pow base right)
  | _, _, _ => .bin op left right

mutual

/-- The expression that the infix text is read as. -/
def reread : Expr → Expr
  | .const value =>
    let size := Expr.const (Decimal.readUnsigned (sizeChars value))
    if isBelowZero value then .neg size else size
  | .var name => .ofIdentifier name
  | .bin op left right => rejoin op left.isSigned (reread left) (reread right)
  | .neg operand => .neg (reread operand)
  | .call name arguments => .call name (rereadAll arguments)

def rereadAll : List Expr → List Expr
  | [] => []
  | e :: rest => reread e :: rereadAll rest

end

theorem rereadAll_eq_map (es : List Expr) : rereadAll es = es.map reread := by
  induction es with
  | nil => rfl
  | cons e rest ih => rw [rereadAll, ih, List.map_cons]

theorem writtenArguments_eq (es : List Expr) :
    writtenArguments es = [Lexeme.comma].intercalate (es.map written) := by
  induction es with
  | nil => rfl
  | cons e rest ih =>
      cases rest with
      | nil => rw [writtenArguments, List.map_singleton, List.intercalate_singleton]
      | cons f rest =>
          have more : (f :: rest).map written ≠ [] := List.cons_ne_nil _ _
          rw [writtenArguments, ih, List.map_cons (l := f :: rest),
            List.intercalate_cons_of_ne_nil more, List.append_assoc, List.singleton_append]
          exact List.cons_ne_nil f rest

/-- A power whose base has no sign in front of it. -/
def HasPlainBase : Expr → Prop
  | .bin op left _ => op = .pow → left.isSigned = false
  | .const _ | .var _ | .neg _ | .call .. => True

theorem rejoin_plain (op : BinaryOp) (left right : Expr) :
    rejoin op false left right = .bin op left right := by
  cases op <;> rfl

theorem rejoin_other {op : BinaryOp} (other : op ≠ .pow) (signed : Bool) (left right : Expr) :
    rejoin op signed left right = .bin op left right := by
  cases op with
  | pow => exact absurd rfl other
  | add => rfl
  | sub => rfl
  | mul => rfl
  | div => rfl

/-- Operands stay where they are unless the base of a power has a sign. -/
theorem reread_bin {op : BinaryOp} {left right : Expr}
    (plain : HasPlainBase (.bin op left right)) :
    reread (.bin op left right) = .bin op (reread left) (reread right) := by
  rw [reread]
  by_cases power : op = .pow
  · rw [plain power, rejoin_plain]
  · exact rejoin_other power _ _ _

/-- What is written is an atom, or a minus sign and an atom. -/
structure Rereads (e : Expr) : Prop where
  plain : e.isSigned = false → Phrase .atom (written e) (reread e)
  signed : e.isSigned = true →
    ∃ ts a, written e = .operator .sub :: ts ∧ reread e = .neg a ∧ Phrase .atom ts a

theorem Rereads.factor {e : Expr} (text : Rereads e) : Phrase .factor (written e) (reread e) := by
  cases sign : e.isSigned with
  | false => exact .factorOfPower (.powerOfAtom (text.plain sign))
  | true =>
      obtain ⟨ts, a, writes, reads, atom⟩ := text.signed sign
      rw [writes, reads]
      exact .negation (.factorOfPower (.powerOfAtom atom))

theorem Rereads.product {e : Expr} (text : Rereads e) : Phrase .product (written e) (reread e) :=
  .productOfFactor text.factor

theorem Rereads.sum {e : Expr} (text : Rereads e) : Phrase .sum (written e) (reread e) :=
  .sumOfProduct text.product

theorem rereads_bin (op : BinaryOp) {left right : Expr} (first : Rereads left)
    (second : Rereads right) : Rereads (.bin op left right) := by
  refine ⟨?_, by intro signed; cases signed⟩
  intro _
  rw [written, reread]
  apply Phrase.group
  cases op with
  | add => exact .sum (.inl rfl) first.sum second.product
  | sub => exact .sum (.inr rfl) first.sum second.product
  | mul => exact .sumOfProduct (.product (.inl rfl) first.product second.factor)
  | div => exact .sumOfProduct (.product (.inr rfl) first.product second.factor)
  | pow =>
      cases sign : left.isSigned with
      | false =>
          exact .sumOfProduct (.productOfFactor (.factorOfPower
            (.power (first.plain sign) second.factor)))
      | true =>
          obtain ⟨ts, base, writes, reads, atom⟩ := first.signed sign
          rw [writes, reads]
          exact .sumOfProduct (.productOfFactor (.negation (.factorOfPower
            (.power atom second.factor))))

theorem phrase_size (value : Float) :
    Phrase .atom [.number (String.ofList (sizeChars value))]
      (.const (Decimal.readUnsigned (sizeChars value))) := by
  have phrase := Phrase.number (String.ofList (sizeChars value))
  rwa [String.toList_ofList] at phrase

/-- The lexemes of an expression are a phrase of the expression that its text is read as. -/
theorem rereads (e : Expr) : Rereads e := by
  induction e using Expr.induction with
  | const value =>
      constructor
      · intro plain
        simp only [isSigned] at plain
        simp only [written, reread, plain, Bool.false_eq_true, ↓reduceIte]
        exact phrase_size value
      · intro signed
        simp only [isSigned] at signed
        simp only [written, reread, signed, ↓reduceIte]
        exact ⟨_, _, rfl, rfl, phrase_size value⟩
  | var name => exact ⟨fun _ => .identifier name, by intro signed; cases signed⟩
  | bin op left right first second => exact rereads_bin op first second
  | neg operand ih =>
      constructor
      · intro plain
        cases plain
      · intro _
        exact ⟨_, _, by rw [written], by rw [reread], .group ih.sum⟩
  | call name arguments ih =>
      refine ⟨?_, by intro signed; cases signed⟩
      intro _
      have each : ∀ a ∈ arguments.map fun e => (written e, reread e), Phrase .sum a.1 a.2 := by
        intro a inside
        obtain ⟨e, among, rfl⟩ := List.mem_map.1 inside
        exact (ih e among).sum
      have phrase := Phrase.call name _ each
      rw [written, reread, writtenArguments_eq, rereadAll_eq_map]
      simpa only [List.map_map, Function.comp_def] using phrase

end Formula.Expr
