import Formula.Proofs.Yard.Folding
import Formula.Proofs.Yard.Simulation

/-!
Images of runs. The yard never looks into a finished part, and the places of tokens only reach its
messages. So a function that keeps constants and operations takes a run to a run with the image of
its outcome, whatever the places of the tokens are.
-/

set_option autoImplicit false

namespace Formula

/-- A token that is nowhere in particular. -/
def Token.ofLexeme (t : Lexeme) : Token := ⟨t, 0⟩

namespace Expr

/-- A function on expressions that keeps constants and operations. It is free on variables. -/
structure KeepsOperations (f : Expr → Expr) : Prop where
  const : ∀ value, f (.const value) = .const value
  bin : ∀ op a b, f (.bin op a b) = .bin op (f a) (f b)
  neg : ∀ a, f (.neg a) = .neg (f a)
  call : ∀ name arguments, f (.call name arguments) = .call name (arguments.map f)

theorem keepsOperations_id : KeepsOperations id where
  const _ := rfl
  bin _ _ _ := rfl
  neg _ := rfl
  call name arguments := by simp only [id_eq, List.map_id]

/-- The function keeps what stands for an identifier that is not called. -/
def KeepsIdentifier (f : Expr → Expr) (t : Lexeme) : Prop :=
  ∀ name, t = .identifier name → f (.ofIdentifier name) = .ofIdentifier name

end Expr

theorem toOption_ok {α : Type} (a : α) : (.ok a : Fallible α).toOption = some a := rfl

theorem toOption_eq_some {α : Type} {x : Fallible α} {a : α} :
    x.toOption = some a ↔ x = .ok a := by
  cases x <;> simp [Except.toOption]

theorem toOption_map {α β : Type} (g : α → β) (x : Fallible α) :
    (x.map g).toOption = x.toOption.map g := by
  cases x <;> rfl

theorem toOption_bind {α β : Type} (x : Fallible α) (g : α → Fallible β) :
    (x.bind g).toOption = x.toOption.bind fun a => (g a).toOption := by
  cases x <;> rfl

open Formula.Expr (KeepsOperations KeepsIdentifier)

variable {f : Expr → Expr}

namespace Operator

theorem applyTo_map (keeps : KeepsOperations f) (op : Operator) (parts : List Expr) :
    op.applyTo (parts.map f) = (op.applyTo parts).map (List.map f) := by
  cases op with
  | negate =>
      cases parts with
      | nil => rfl
      | cons a rest => simp only [List.map_cons, applyTo, Option.map_some, keeps.neg]
  | binary op =>
      cases parts with
      | nil => rfl
      | cons b parts =>
          cases parts with
          | nil => rfl
          | cons a rest => simp only [List.map_cons, applyTo, Option.map_some, keeps.bin]

theorem foldAll_map (keeps : KeepsOperations f) (ops : List Operator) (parts : List Expr) :
    foldAll ops (parts.map f) = (foldAll ops parts).map (List.map f) := by
  induction ops generalizing parts with
  | nil => rfl
  | cons op ops ih =>
      simp only [foldAll, applyTo_map keeps]
      cases op.applyTo parts with
      | none => rfl
      | some parts => exact ih parts

theorem foldPreceding_map (keeps : KeepsOperations f) (incoming : Operator) (ops : List Operator)
    (parts : List Expr) :
    incoming.foldPreceding ops (parts.map f) =
      (incoming.foldPreceding ops parts).map (Prod.map id (List.map f)) := by
  induction ops generalizing parts with
  | nil => rfl
  | cons op ops ih =>
      simp only [foldPreceding]
      split
      · rw [applyTo_map keeps]
        cases op.applyTo parts with
        | none => rfl
        | some parts => exact ih parts
      · rfl

end Operator

namespace Yard

/-- An opening without its places. -/
def Opening.unplaced : Opening → Opening
  | .group _ => .group 0
  | .call name _ _ commas => .call name 0 0 commas

/-- The image of the parts of a level. -/
def Level.image (f : Expr → Expr) (level : Level) : Level :=
  { level with parts := level.parts.map f }

namespace Levels

/-- The image of all parts, without the places of openings and callees. -/
def image (f : Expr → Expr) (s : Levels) : Levels where
  inner := s.inner.image f
  outer := s.outer.map fun (o, level) => (o.unplaced, level.image f)
  callee := s.callee.map fun (name, _) => (name, 0)

theorem image_putPart (s : Levels) (e : Expr) :
    (s.putPart e).image f = (s.image f).putPart (f e) := rfl

/-! ### One token -/

theorem endArgument_image (keeps : KeepsOperations f) (s : Levels) (position : Nat) :
    ((s.image f).endArgument 0).toOption = (s.endArgument position).toOption.map (image f) := by
  obtain ⟨⟨ops, parts⟩, outer, callee⟩ := s
  simp only [endArgument, image, Level.image, Operator.foldAll_map keeps]
  cases Operator.foldAll ops parts with
  | none => rfl
  | some parts =>
      cases outer with
      | nil => rfl
      | cons around rest =>
          obtain ⟨o, level⟩ := around
          cases o with
          | group opened => rfl
          | call name place opened commas =>
              simp only [Option.map_some, List.map_cons, Opening.unplaced, List.length_map]
              split
              · rfl
              · split <;> rfl

theorem close_image (keeps : KeepsOperations f) (o : Opening) (level : Level) (parts : List Expr)
    (position : Nat) :
    (close o.unplaced (level.image f) (parts.map f) 0).toOption =
      (close o level parts position).toOption.map (Level.image f) := by
  cases o with
  | group opened =>
      simp only [Opening.unplaced, close, List.length_map]
      split
      · rfl
      · split
        · rfl
        · simp only [toOption_ok, Option.map_some, Level.image, List.map_append]
  | call name place opened commas =>
      simp only [Opening.unplaced, close, List.length_map]
      generalize (if commas = 0 ∧ parts.length = 0 then 0 else commas + 1) = expected
      split
      · rfl
      · split
        · rfl
        · simp only [toOption_ok, Option.map_some, Level.image, List.map_cons, keeps.call,
            List.map_reverse]

theorem closeParen_image (keeps : KeepsOperations f) (s : Levels) (position : Nat) :
    ((s.image f).closeParen 0).toOption = (s.closeParen position).toOption.map (image f) := by
  obtain ⟨⟨ops, parts⟩, outer, callee⟩ := s
  cases outer with
  | nil =>
      simp only [closeParen, image, Level.image, Operator.foldAll_map keeps]
      cases Operator.foldAll ops parts <;> rfl
  | cons around rest =>
      simp only [closeParen, image, Level.image, Operator.foldAll_map keeps, List.map_cons]
      cases Operator.foldAll ops parts with
      | none => rfl
      | some parts =>
          have closed := close_image keeps around.1 around.2 parts position
          simp only [Level.image] at closed
          simp only [Option.map_some, toOption_map, closed, Option.map_map]
          rfl

theorem accept_image (keeps : KeepsOperations f) (previous : Option Lexeme) (opensNext : Bool)
    (s : Levels) (t : Token) (kept : KeepsIdentifier f t.lexeme) :
    ((s.image f).accept none previous opensNext (.ofLexeme t.lexeme)).toOption =
      (s.accept none previous opensNext t).toOption.map (image f) := by
  obtain ⟨lexeme, position⟩ := t
  cases lexeme with
  | number text =>
      simp only [accept, Token.ofLexeme, toOption_ok, Option.map_some, image_putPart, keeps.const]
  | identifier name =>
      cases opensNext with
      | true => rfl
      | false =>
          have same : f (.ofIdentifier name) = .ofIdentifier name := kept name rfl
          simp only [accept, Token.ofLexeme, putIdentifier, Bool.false_eq_true, ↓reduceIte,
            toOption_ok, Option.map_some, image_putPart, same]
  | operator op =>
      simp only [accept, Token.ofLexeme, putOperator, image, Level.image,
        Operator.foldPreceding_map keeps]
      cases Operator.foldPreceding _ s.inner.operators s.inner.parts <;> rfl
  | leftParen =>
      obtain ⟨inner, outer, callee⟩ := s
      cases callee <;> rfl
  | comma => exact endArgument_image keeps s position
  | rightParen => exact closeParen_image keeps s position

/-! ### Whole runs -/

theorem map_lexeme_ofLexeme (ts : List Lexeme) : (ts.map .ofLexeme).map Token.lexeme = ts := by
  rw [List.map_map]
  exact List.map_id ts

theorem startsOpen_ofLexeme (tokens : List Token) :
    startsOpen ((tokens.map Token.lexeme).map .ofLexeme) = startsOpen tokens := by
  cases tokens <;> rfl

theorem acceptAll_image (keeps : KeepsOperations f) (previous : Option Lexeme) (s : Levels)
    (tokens : List Token) (kept : ∀ t ∈ tokens.map Token.lexeme, KeepsIdentifier f t) :
    ((s.image f).acceptAll none previous ((tokens.map Token.lexeme).map .ofLexeme)).toOption =
      (s.acceptAll none previous tokens).toOption.map (image f) := by
  induction tokens generalizing previous s with
  | nil => rfl
  | cons t rest ih =>
      obtain ⟨keptFirst, keptRest⟩ := List.forall_mem_cons.1 kept
      have first := accept_image keeps previous (startsOpen rest) s t keptFirst
      simp only [List.map_cons, acceptAll, startsOpen_ofLexeme, toOption_bind, first]
      cases s.accept none previous (startsOpen rest) t with
      | error failure => rfl
      | ok next => exact ih _ next keptRest

theorem finish_image (keeps : KeepsOperations f) (s : Levels) (position : Nat) :
    ((s.image f).finish 0).toOption = (s.finish position).toOption.map f := by
  obtain ⟨⟨ops, parts⟩, outer, callee⟩ := s
  simp only [finish, image, Level.image, Operator.foldAll_map keeps]
  cases Operator.foldAll ops parts with
  | none => rfl
  | some parts =>
      cases outer with
      | cons around rest => rfl
      | nil =>
          cases parts with
          | nil => rfl
          | cons e more => cases more <;> rfl

/-- What comes out in the end if the lexemes follow on the levels. -/
def outcome (previous : Option Lexeme) (s : Levels) (ts : List Lexeme) : Option Expr :=
  ((s.acceptAll none previous (ts.map .ofLexeme)).bind fun s => s.finish 0).toOption

/-- A run from any levels, at any places, against the run from their image. -/
theorem outcome_image (keeps : KeepsOperations f) (previous : Option Lexeme) (s : Levels)
    (tokens : List Token) (position : Nat)
    (kept : ∀ t ∈ tokens.map Token.lexeme, KeepsIdentifier f t) :
    (s.image f).outcome previous (tokens.map Token.lexeme) =
      ((s.acceptAll none previous tokens).bind fun s => s.finish position).toOption.map f := by
  have run := acceptAll_image keeps previous s tokens kept
  simp only [outcome, toOption_bind, run]
  cases s.acceptAll none previous tokens with
  | error failure => rfl
  | ok next => exact finish_image keeps next position

/-- The expression of a row of tokens does not depend on where they are. -/
theorem parse_eq_outcome (tokens : List Token) :
    (parse none tokens).toOption = outcome none {} (tokens.map Token.lexeme) := by
  have same := outcome_image Expr.keepsOperations_id none {} tokens (Token.endOf tokens)
    (fun _ _ _ _ => rfl)
  rw [Option.map_id] at same
  exact same.symm

end Levels

end Yard

end Formula
