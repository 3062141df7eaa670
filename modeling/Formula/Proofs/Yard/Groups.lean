import Formula.Proofs.Yard.Folding

/-!
Groups and calls. A row of tokens that fills a level may stand between the parentheses of a group or
be an argument of a call: reading the group or the call puts one part into the level around it.
-/

set_option autoImplicit false

namespace Formula.Yard.Levels

open Operator (foldAll)

/-- Reading the tokens of a row at the start of a level, or of an argument, fills the level with
operators and parts. The parts fold into the expression. -/
def Fills (ts : List Lexeme) (e : Expr) : Prop :=
  ∀ (tokens rest : List Token) (previous : Option Lexeme) (s : Levels),
    tokens.map Token.lexeme = ts → Lexeme.expectsOperand previous = true →
    startsOpen rest = false → s.callee = none → s.inner.operators = [] →
    ∃ ops parts last, foldAll ops parts = some [e] ∧
      s.acceptAll none previous (tokens ++ rest) =
        acceptAll none last ⟨⟨ops, parts ++ s.inner.parts⟩, s.outer, none⟩ rest

theorem acceptAll_group {ts : List Lexeme} {e : Expr} (fills : Fills ts e) (s : Levels)
    (previous : Option Lexeme) (tokens rest : List Token)
    (written : tokens.map Token.lexeme = .leftParen :: ts ++ [.rightParen])
    (settled : s.callee = none) :
    s.acceptAll none previous (tokens ++ rest) =
      acceptAll none (some .rightParen) (s.putPart e) rest := by
  obtain ⟨opened, closing, rfl, writtenOpen, writtenClose⟩ := List.map_eq_append_iff.1 written
  obtain ⟨opening, inside, rfl, isOpen, writtenInside⟩ := List.map_eq_cons_iff.1 writtenOpen
  obtain ⟨closer, rfl, isClose⟩ := List.map_eq_singleton_iff.1 writtenClose
  obtain ⟨⟨waiting, below⟩, outer, callee⟩ := s
  cases settled
  let around : List (Opening × Level) := (.group opening.position, ⟨waiting, below⟩) :: outer
  have opens : accept none previous (startsOpen (inside ++ closer :: rest))
      ⟨⟨waiting, below⟩, outer, none⟩ opening = .ok ⟨{}, around, none⟩ := by
    simp only [accept, isOpen]
    rfl
  obtain ⟨ops, parts, last, folded, run⟩ :=
    fills inside (closer :: rest) (some .leftParen) ⟨{}, around, none⟩ writtenInside rfl
      (by simp only [startsOpen, isClose]; rfl) rfl rfl
  have closes : accept none last (startsOpen rest) ⟨⟨ops, parts⟩, around, none⟩ closer =
      .ok ⟨⟨waiting, e :: below⟩, outer, none⟩ := by
    simp only [accept, isClose, closeParen, folded]
    rfl
  rw [List.append_assoc, List.singleton_append, List.cons_append, acceptAll_cons opens, isOpen,
    run]
  simp only [List.append_nil]
  rw [acceptAll_cons closes, isClose]
  rfl

section

variable {ops : List Operator} {parts done : List Expr} {e : Expr} {name : String}
  {place position : Nat} {level : Level} {outer : List (Opening × Level)}
  {previous : Option Lexeme} {opensNext : Bool} {t : Token}
  (folded : foldAll ops parts = some [e])

include folded

/-- The comma behind an argument puts it with the finished ones, and starts the next one. -/
theorem accept_comma (comma : t.lexeme = .comma) :
    accept none previous opensNext
        ⟨⟨ops, parts ++ done⟩, (.call name place position done.length, level) :: outer, none⟩ t =
      .ok ⟨⟨[], e :: done⟩, (.call name place position (e :: done).length, level) :: outer,
        none⟩ := by
  simp only [accept, comma, endArgument, Operator.foldAll_append_parts done folded,
    List.singleton_append, List.length_cons, Nat.lt_irrefl, ↓reduceIte]

/-- The parenthesis behind the last argument puts the call into the level around it. -/
theorem accept_closeCall (closer : t.lexeme = .rightParen) :
    accept none previous opensNext
        ⟨⟨ops, parts ++ done⟩, (.call name place position done.length, level) :: outer, none⟩ t =
      .ok ⟨{ level with parts := .call name (done.reverse ++ [e]) :: level.parts }, outer,
        none⟩ := by
  simp only [accept, closer, closeParen, Operator.foldAll_append_parts done folded, close,
    List.singleton_append, List.length_cons, Nat.add_eq_zero_iff, Nat.one_ne_zero, and_false,
    ↓reduceIte, Nat.lt_irrefl, List.reverse_cons]
  rfl

end

/-- The arguments of a call from some point on, and the parenthesis that closes it. -/
theorem acceptAll_arguments (name : String) (place position : Nat) (level : Level)
    (outer : List (Opening × Level)) (arguments : List (List Lexeme × Expr))
    (present : arguments ≠ []) (fills : ∀ a ∈ arguments, Fills a.1 a.2)
    (tokens rest : List Token) (closer : Token) (previous : Option Lexeme) (done : List Expr)
    (written : tokens.map Token.lexeme = [Lexeme.comma].intercalate (arguments.map Prod.fst))
    (isClose : closer.lexeme = .rightParen) (expects : Lexeme.expectsOperand previous = true) :
    acceptAll none previous
        ⟨⟨[], done⟩, (.call name place position done.length, level) :: outer, none⟩
        (tokens ++ closer :: rest) =
      acceptAll none (some .rightParen)
        ⟨{ level with
          parts := .call name (done.reverse ++ arguments.map Prod.snd) :: level.parts },
          outer, none⟩ rest := by
  induction arguments generalizing tokens previous done with
  | nil => exact absurd rfl present
  | cons first more ih =>
      have fill := fills first List.mem_cons_self
      cases more with
      | nil =>
          simp only [List.map_cons, List.map_nil, List.intercalate, List.intersperse_singleton,
            List.flatten_cons, List.flatten_nil, List.append_nil] at written
          obtain ⟨ops, parts, last, folded, run⟩ :=
            fill tokens (closer :: rest) previous
              ⟨⟨[], done⟩, (.call name place position done.length, level) :: outer, none⟩
              written expects (by simp only [startsOpen, isClose]; rfl) rfl rfl
          rw [run, acceptAll_cons (accept_closeCall folded isClose), isClose]
          rfl
      | cons second more =>
          simp only [List.map_cons, List.intercalate, List.intersperse_cons_cons,
            List.flatten_cons, List.singleton_append] at written
          obtain ⟨argument, tail, rfl, writtenFirst, written⟩ := List.map_eq_append_iff.1 written
          obtain ⟨comma, tokens, rfl, isComma, written⟩ := List.map_eq_cons_iff.1 written
          obtain ⟨ops, parts, last, folded, run⟩ :=
            fill argument (comma :: tokens ++ closer :: rest) previous
              ⟨⟨[], done⟩, (.call name place position done.length, level) :: outer, none⟩
              writtenFirst expects
              (by simp only [List.cons_append, startsOpen, isComma]; rfl) rfl rfl
          rw [List.append_assoc, run, List.cons_append,
            acceptAll_cons (accept_comma folded isComma), isComma,
            ih (List.cons_ne_nil _ _) (fun a inside => fills a (List.mem_cons_of_mem _ inside))
              tokens (some .comma) (first.2 :: done) written rfl]
          simp only [List.reverse_cons, List.append_assoc, List.singleton_append, List.map_cons]

theorem acceptAll_call (name : String) (arguments : List (List Lexeme × Expr))
    (fills : ∀ a ∈ arguments, Fills a.1 a.2) (s : Levels) (previous : Option Lexeme)
    (tokens rest : List Token)
    (written : tokens.map Token.lexeme = .identifier name :: .leftParen ::
      [Lexeme.comma].intercalate (arguments.map Prod.fst) ++ [.rightParen])
    (settled : s.callee = none) :
    s.acceptAll none previous (tokens ++ rest) =
      acceptAll none (some .rightParen) (s.putPart (.call name (arguments.map Prod.snd))) rest := by
  obtain ⟨called, closing, rfl, writtenCall, writtenClose⟩ := List.map_eq_append_iff.1 written
  obtain ⟨callee, opened, rfl, isCallee, writtenOpen⟩ := List.map_eq_cons_iff.1 writtenCall
  obtain ⟨opening, inside, rfl, isOpen, writtenInside⟩ := List.map_eq_cons_iff.1 writtenOpen
  obtain ⟨closer, rfl, isClose⟩ := List.map_eq_singleton_iff.1 writtenClose
  obtain ⟨⟨waiting, below⟩, outer, pending⟩ := s
  cases settled
  let around : List (Opening × Level) :=
    (.call name callee.position opening.position 0, ⟨waiting, below⟩) :: outer
  have names : accept none previous (startsOpen (opening :: inside ++ closer :: rest))
      ⟨⟨waiting, below⟩, outer, none⟩ callee =
        .ok ⟨⟨waiting, below⟩, outer, some (name, callee.position)⟩ := by
    simp only [accept, isCallee, List.cons_append, startsOpen, isOpen, beq_self_eq_true,
      putIdentifier, ↓reduceIte]
  have opens : accept none (some (.identifier name)) (startsOpen (inside ++ closer :: rest))
      ⟨⟨waiting, below⟩, outer, some (name, callee.position)⟩ opening =
        .ok ⟨{}, around, none⟩ := by
    simp only [accept, isOpen]
    rfl
  rw [List.append_assoc, List.singleton_append, List.cons_append, acceptAll_cons names, isCallee,
    List.cons_append, acceptAll_cons opens, isOpen]
  by_cases present : arguments = []
  · subst present
    cases List.map_eq_nil_iff.1 writtenInside
    have closes : accept none (some .leftParen) (startsOpen rest) ⟨{}, around, none⟩ closer =
        .ok ⟨⟨waiting, .call name [] :: below⟩, outer, none⟩ := by
      simp only [accept, isClose]
      rfl
    rw [List.nil_append, acceptAll_cons closes, isClose]
    rfl
  · exact acceptAll_arguments name callee.position opening.position ⟨waiting, below⟩ outer
      arguments present fills inside rest closer (some .leftParen) [] writtenInside isClose rfl

end Formula.Yard.Levels
