import Formula.Proofs.Decimal.ReadBack
import Formula.Proofs.Render.Tokens
import Formula.Proofs.Yard.Completeness

/-!
Rendering undone. The text of a tree is read as this very tree, provided that its constants have a
clear sign bit, its names are those of variables and functions, and no base of a power is a negation.
-/

set_option autoImplicit false

namespace Formula.Expr

/-- A node that its text stands for without ambiguity. -/
def IsLegible : Expr → Prop
  | .const value => ∃ b, Decimal.decode value = .finite b ∧ b.negative = false
  | .var name => Token.isIdentifier name = true ∧ name ≠ "pi" ∧ name ≠ "e"
  | .bin op left _ => op = .pow → ∀ operand, left ≠ .neg operand
  | .neg _ => True
  | .call name _ => Token.isIdentifier name = true

theorem IsLegible.isWritable {e : Expr} (legible : e.IsLegible) : e.IsWritable := by
  cases e with
  | const value =>
      obtain ⟨b, decoded, -⟩ := legible
      exact ⟨b, decoded⟩
  | var name => exact legible.1
  | bin op left right => exact trivial
  | neg operand => exact trivial
  | call name arguments => exact legible

theorem isBelowZero_of_plain {value : Float} {b : Decimal.Binary}
    (decoded : Decimal.decode value = .finite b) (plain : b.negative = false) :
    Decimal.isBelowZero value = false := by
  rw [Decimal.isBelowZero, decoded]
  simp only [Decimal.Binary.isBelowZero, plain, Bool.false_and]

theorem ofIdentifier_eq_var {name : String} (notPi : name ≠ "pi") (notE : name ≠ "e") :
    ofIdentifier name = .var name := by
  rw [ofIdentifier, reserved?, if_neg notPi, if_neg notE]

/-- A legible base has a sign only if it is a negation. -/
theorem isSigned_of_legible {e : Expr} (legible : e.IsLegible)
    (notNegation : ∀ operand, e ≠ .neg operand) : e.isSigned = false := by
  cases e with
  | const value =>
      obtain ⟨b, decoded, plain⟩ := legible
      exact isBelowZero_of_plain decoded plain
  | neg operand => exact absurd rfl (notNegation operand)
  | var name => rfl
  | bin op left right => rfl
  | call name arguments => rfl

theorem hasPlainBase_of_legible {e : Expr} (legible : e.Everywhere IsLegible) :
    e.HasPlainBase := by
  cases e with
  | bin op left right =>
      exact fun power => isSigned_of_legible legible.left.root (legible.root power)
  | const value => exact trivial
  | var name => exact trivial
  | neg operand => exact trivial
  | call name arguments => exact trivial

theorem reread_of_legible (e : Expr) (legible : e.Everywhere IsLegible) : reread e = e := by
  induction e using Expr.induction with
  | const value =>
      obtain ⟨b, decoded, plain⟩ := legible.root
      simp only [reread, isBelowZero_of_plain decoded plain, Bool.false_eq_true, ↓reduceIte,
        Decimal.readUnsigned_sizeChars decoded plain]
  | var name => exact ofIdentifier_eq_var legible.root.2.1 legible.root.2.2
  | bin op left right first second =>
      rw [reread_bin (hasPlainBase_of_legible legible), first legible.left, second legible.right]
  | neg operand ih => rw [reread, ih legible.operand]
  | call name arguments ih =>
      have each : arguments.map reread = arguments.map id :=
        List.map_congr_left fun a inside => ih a inside (legible.argument inside)
      rw [reread, rereadAll_eq_map, each, List.map_id]

/-- The text of a legible tree is scanned, and its tokens are read as this tree under every limit
that is not below its depth. -/
theorem ofTokens_scan_render (e : Expr) (limit : Int) (legible : e.Everywhere IsLegible)
    (deep : (e.depth : Int) ≤ limit) :
    ∃ tokens, Token.scan e.render = .ok tokens ∧ ofTokens (some limit) tokens = .ok e := by
  obtain ⟨tokens, scanned, lexemes⟩ := scan_render e (legible.mono fun _ => IsLegible.isWritable)
  have derived : Phrase .sum (tokens.map Token.lexeme) e := by
    have phrase := (rereads e).sum
    rwa [reread_of_legible e legible, ← lexemes] at phrase
  have within : (Lexeme.nesting (tokens.map Token.lexeme) : Int) ≤ limit := by
    have nested := nesting_written_le e
    rw [lexemes]
    omega
  refine ⟨tokens, scanned, ?_⟩
  rw [Yard.Levels.ofTokens_eq_parse, Yard.Levels.parse_of_nesting_le limit tokens within]
  exact Yard.Levels.parse_of_phrase tokens e derived

/-- `(x ^ -(y)) * f(2.5, g())` under the limit of four open parentheses. -/
theorem ofTokens_scan_render_product :
    ∃ tokens, Token.scan (Expr.bin .mul (.bin .pow (.var "x") (.neg (.var "y")))
        (.call "f" [.const 2.5, .call "g" []])).render = .ok tokens ∧
      ofTokens (some 4) tokens = .ok (.bin .mul (.bin .pow (.var "x") (.neg (.var "y")))
        (.call "f" [.const 2.5, .call "g" []])) := by
  have number : ∃ b, Decimal.decode 2.5 = .finite b ∧ b.negative = false :=
    ⟨⟨false, 5629499534213120, -51⟩, by decide +kernel, rfl⟩
  have x : Token.isIdentifier "x" = true := by decide +kernel
  have y : Token.isIdentifier "y" = true := by decide +kernel
  have f : Token.isIdentifier "f" = true := by decide +kernel
  have g : Token.isIdentifier "g" = true := by decide +kernel
  refine ofTokens_scan_render _ 4 ?_ (by rw [depth_eq_height]; decide)
  simp [IsLegible, number, x, y, f, g]

end Formula.Expr
