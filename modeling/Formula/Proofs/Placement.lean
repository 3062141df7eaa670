import Formula.Proofs.Grammar

/-!
Where lexemes may stand. A row of lexemes is placed when each of them stands where the ones before it
allow, which takes one look at the lexeme directly before it and a stack of the open parentheses. A
placed row is derivable: it splits into operands, and each operand joins the phrase behind it.
-/

set_option autoImplicit false

namespace Formula

namespace Lexeme

theorem endsOperand_eq (t : Lexeme) : t.endsOperand = !expectsOperand (some t) := by
  cases t <;> rfl

/-- A lexeme may stand behind another one. The stack says of every open parenthesis whether it
belongs to a call, the innermost first. -/
def Fits (stack : List Bool) (previous : Option Lexeme) : Lexeme → Prop
  | .number _ | .identifier _ => expectsOperand previous = true
  | .operator op => expectsOperand previous = true → op = .sub
  | .leftParen => expectsOperand previous = true ∨ previous.any isIdentifier = true
  | .comma => expectsOperand previous = false ∧ stack.head? = some true
  | .rightParen => expectsOperand previous = false ∧ stack ≠ [] ∨
      previous = some .leftParen ∧ stack.head? = some true

def stackAfter (stack : List Bool) (previous : Option Lexeme) : Lexeme → List Bool
  | .leftParen => (!expectsOperand previous) :: stack
  | .rightParen => stack.tail
  | .number _ | .identifier _ | .operator _ | .comma => stack

/-- Every lexeme of a row stands where it may, and the row ends with an operand outside of all
parentheses. -/
def Placed (stack : List Bool) (previous : Option Lexeme) : List Lexeme → Prop
  | [] => stack = [] ∧ expectsOperand previous = false
  | t :: rest => Fits stack previous t ∧ Placed (stackAfter stack previous t) (some t) rest

/-- Nothing, a comma or a closing parenthesis comes next. -/
def endsSum : List Lexeme → Bool
  | [] | .comma :: _ | .rightParen :: _ => true
  | .number _ :: _ | .identifier _ :: _ | .operator _ :: _ | .leftParen :: _ => false

/-- A row starts with a sum, and what is left of it goes on behind an operand. -/
def Splits (stack : List Bool) (ts : List Lexeme) : Prop :=
  ∃ us rest last, ts = us ++ rest ∧ Derivable .sum us ∧ endsSum rest = true ∧
    expectsOperand (some last) = false ∧ Placed stack (some last) rest

/-- A row starts with the arguments of a call and its closing parenthesis. -/
def SplitsArguments (stack : List Bool) (ts : List Lexeme) : Prop :=
  ∃ (arguments : List (List Lexeme × Expr)) (rest : List Lexeme), arguments ≠ [] ∧
    ts = [Lexeme.comma].intercalate (arguments.map Prod.fst) ++ .rightParen :: rest ∧
      (∀ a ∈ arguments, Phrase .sum a.1 a.2) ∧ Placed stack (some .rightParen) rest

end Lexeme

/-! ### Nothing side by side -/

namespace Lexeme

theorem juxtaposed_of_start {t u : Lexeme} (starts : u.startsOperand = false) :
    juxtaposed t u = false := by
  rw [juxtaposed, starts, Bool.and_false, Bool.false_and]

/-- Rows may be put around a lexeme that neither starts nor ends an operand. -/
theorem unjuxtaposed_around {ts us : List Lexeme} {t : Lexeme} (starts : t.startsOperand = false)
    (ends : t.endsOperand = false) (first : Unjuxtaposed ts) (second : Unjuxtaposed us) :
    Unjuxtaposed (ts ++ t :: us) := by
  refine List.isChain_append.2 ⟨first, List.isChain_cons.2 ⟨fun u _ => ?_, second⟩, ?_⟩
  · rw [juxtaposed, ends, Bool.false_and, Bool.false_and]
  · intro u _ v front
    cases front
    exact juxtaposed_of_start starts

theorem unjuxtaposed_parenthesised {ts : List Lexeme} (inside : Unjuxtaposed ts) :
    Unjuxtaposed (.leftParen :: ts ++ [.rightParen]) := by
  refine List.isChain_append.2 ⟨List.isChain_cons.2 ⟨fun u _ => rfl, inside⟩, .singleton _, ?_⟩
  intro u _ v front
  cases front
  exact juxtaposed_of_start rfl

theorem unjuxtaposed_intercalate {rows : List (List Lexeme)}
    (each : ∀ ts ∈ rows, Unjuxtaposed ts) : Unjuxtaposed ([Lexeme.comma].intercalate rows) := by
  induction rows with
  | nil => exact .nil
  | cons ts rows ih =>
      have more := ih fun us inside => each us (List.mem_cons_of_mem _ inside)
      by_cases none : rows = []
      · rw [none, List.intercalate_singleton]
        exact each ts List.mem_cons_self
      · rw [List.intercalate_cons_of_ne_nil none, List.append_assoc, List.singleton_append]
        exact unjuxtaposed_around rfl rfl (each ts List.mem_cons_self) more

end Lexeme

theorem Phrase.unjuxtaposed {c : Category} {ts : List Lexeme} {e : Expr}
    (phrase : Phrase c ts e) : Lexeme.Unjuxtaposed ts := by
  induction phrase with
  | sumOfProduct _ ih => exact ih
  | sum _ _ _ first second => exact Lexeme.unjuxtaposed_around rfl rfl first second
  | productOfFactor _ ih => exact ih
  | product _ _ _ first second => exact Lexeme.unjuxtaposed_around rfl rfl first second
  | factorOfPower _ ih => exact ih
  | negation _ ih => exact Lexeme.unjuxtaposed_around rfl rfl .nil ih
  | powerOfAtom _ ih => exact ih
  | power _ _ first second => exact Lexeme.unjuxtaposed_around rfl rfl first second
  | number text => exact .singleton _
  | identifier name => exact .singleton _
  | group _ ih => exact Lexeme.unjuxtaposed_parenthesised ih
  | call name arguments _ ih =>
      refine List.isChain_cons.2 ⟨?_, Lexeme.unjuxtaposed_parenthesised ?_⟩
      · intro u front
        cases front
        rfl
      · apply Lexeme.unjuxtaposed_intercalate
        intro ts inside
        obtain ⟨a, among, rfl⟩ := List.mem_map.1 inside
        exact ih a among

/-! ### In front of a phrase -/

theorem Derivable.power_factor {ts us : List Lexeme} (base : Derivable .atom ts)
    (exponent : Derivable .factor us) : Derivable .factor (ts ++ .operator .pow :: us) := by
  obtain ⟨a, base⟩ := base
  obtain ⟨b, exponent⟩ := exponent
  exact ⟨_, .factorOfPower (.power base exponent)⟩

theorem Derivable.product_of_atom {ts : List Lexeme} (atom : Derivable .atom ts) :
    Derivable .product ts := by
  obtain ⟨e, atom⟩ := atom
  exact ⟨e, .productOfFactor (.factorOfPower (.powerOfAtom atom))⟩

/-- What can stand in front of a factor can stand in front of a product: it joins the first factor
of the product. -/
theorem Derivable.prepend_product {front ts : List Lexeme}
    (joins : ∀ us, Derivable .factor us → Derivable .product (front ++ us))
    (derived : Derivable .product ts) : Derivable .product (front ++ ts) := by
  obtain ⟨e, phrase⟩ := derived
  generalize isProduct : Category.product = c at phrase
  induction phrase with
  | productOfFactor factor _ => exact joins _ ⟨_, factor⟩
  | product factoring _ right ih _ =>
      obtain ⟨a, left⟩ := ih isProduct
      rw [← List.append_assoc]
      exact ⟨_, .product factoring left right⟩
  | _ => cases isProduct

/-- What can stand in front of a product can stand in front of a sum. -/
theorem Derivable.prepend_sum {front ts : List Lexeme}
    (joins : ∀ us, Derivable .product us → Derivable .sum (front ++ us))
    (derived : Derivable .sum ts) : Derivable .sum (front ++ ts) := by
  obtain ⟨e, phrase⟩ := derived
  generalize isSum : Category.sum = c at phrase
  induction phrase with
  | sumOfProduct product _ => exact joins _ ⟨_, product⟩
  | sum additive _ right ih _ =>
      obtain ⟨a, left⟩ := ih isSum
      rw [← List.append_assoc]
      exact ⟨_, .sum additive left right⟩
  | _ => cases isSum

/-- What makes a product in front of a factor can stand in front of a sum. -/
theorem Derivable.prepend_factor {front ts : List Lexeme}
    (joins : ∀ us, Derivable .factor us → Derivable .product (front ++ us))
    (derived : Derivable .sum ts) : Derivable .sum (front ++ ts) := by
  apply prepend_sum _ derived
  intro us product
  obtain ⟨e, phrase⟩ := prepend_product joins product
  exact ⟨e, .sumOfProduct phrase⟩

theorem Derivable.negated {ts : List Lexeme} (derived : Derivable .sum ts) :
    Derivable .sum (.operator .sub :: ts) := by
  have joins : ∀ us, Derivable .factor us → Derivable .product ([.operator .sub] ++ us) := by
    rintro us ⟨e, factor⟩
    exact ⟨_, .productOfFactor (.negation factor)⟩
  exact prepend_factor joins derived

/-- Any operator may stand between an operand and a sum. -/
theorem Derivable.joined {ts us : List Lexeme} (op : BinaryOp) (atom : Derivable .atom ts)
    (derived : Derivable .sum us) : Derivable .sum (ts ++ .operator op :: us) := by
  rw [show ts ++ .operator op :: us = ts ++ [.operator op] ++ us by simp]
  have productive (factoring : op = .mul ∨ op = .div) :
      Derivable .sum (ts ++ [.operator op] ++ us) := by
    apply prepend_factor _ derived
    rintro vs ⟨b, factor⟩
    obtain ⟨a, product⟩ := atom.product_of_atom
    rw [List.append_assoc, List.singleton_append]
    exact ⟨_, .product factoring product factor⟩
  have additive (additive : op = .add ∨ op = .sub) :
      Derivable .sum (ts ++ [.operator op] ++ us) := by
    apply prepend_sum _ derived
    rintro vs ⟨b, product⟩
    obtain ⟨a, first⟩ := atom.product_of_atom
    rw [List.append_assoc, List.singleton_append]
    exact ⟨_, .sum additive (.sumOfProduct first) product⟩
  cases op with
  | add => exact additive (.inl rfl)
  | sub => exact additive (.inr rfl)
  | mul => exact productive (.inl rfl)
  | div => exact productive (.inr rfl)
  | pow =>
      apply prepend_factor _ derived
      intro vs factor
      rw [List.append_assoc, List.singleton_append]
      obtain ⟨e, phrase⟩ := atom.power_factor factor
      exact ⟨e, .productOfFactor phrase⟩

namespace Lexeme

/-! ### Splitting a placed row -/

theorem splits_negated {stack : List Bool} {ts : List Lexeme} (splits : Splits stack ts) :
    Splits stack (.operator .sub :: ts) := by
  obtain ⟨us, rest, last, rfl, derived, ends, ended, placed⟩ := splits
  exact ⟨.operator .sub :: us, rest, last, rfl, derived.negated, ends, ended, placed⟩

/-- Behind an operand the sum ends or an operator follows. -/
theorem splits_of_atom {stack : List Bool} {us rest : List Lexeme} {last : Lexeme}
    (atom : Derivable .atom us) (ended : expectsOperand (some last) = false)
    (uncalled : last.isIdentifier = true → rest.head? ≠ some .leftParen)
    (placed : Placed stack (some last) rest)
    (splits : ∀ op more, rest = .operator op :: more → Placed stack (some (.operator op)) more →
      Splits stack more) : Splits stack (us ++ rest) := by
  have alone (ends : endsSum rest = true) : Splits stack (us ++ rest) := by
    obtain ⟨e, product⟩ := atom.product_of_atom
    exact ⟨us, rest, last, rfl, ⟨e, .sumOfProduct product⟩, ends, ended, placed⟩
  match rest with
  | [] => exact alone rfl
  | .comma :: _ => exact alone rfl
  | .rightParen :: _ => exact alone rfl
  | .number _ :: _ =>
      have expects : expectsOperand (some last) = true := placed.1
      rw [ended] at expects
      cases expects
  | .identifier _ :: _ =>
      have expects : expectsOperand (some last) = true := placed.1
      rw [ended] at expects
      cases expects
  | .leftParen :: _ =>
      rcases placed.1 with expects | named
      · rw [ended] at expects
        cases expects
      · exact absurd rfl (uncalled named)
  | .operator op :: more =>
      obtain ⟨vs, rest, last, rfl, derived, ends, ended, placed⟩ := splits op more rfl placed.2
      refine ⟨us ++ .operator op :: vs, rest, last, ?_, .joined op atom derived, ends, ended,
        placed⟩
      simp only [List.append_assoc, List.cons_append]

/-- A sum directly inside of a parenthesis is followed by a comma or by its end. -/
theorem Splits.inside {isCall : Bool} {stack : List Bool} {ts : List Lexeme}
    (splits : Splits (isCall :: stack) ts) :
    ∃ us e, Phrase .sum us e ∧
      ((∃ rest, ts = us ++ .rightParen :: rest ∧ Placed stack (some .rightParen) rest) ∨
        isCall = true ∧ ∃ rest, ts = us ++ .comma :: rest ∧
          Placed (isCall :: stack) (some .comma) rest) := by
  obtain ⟨us, rest, last, rfl, ⟨e, phrase⟩, ends, ended, placed⟩ := splits
  refine ⟨us, e, phrase, ?_⟩
  match rest with
  | [] => cases placed.1
  | .rightParen :: more => exact .inl ⟨more, rfl, placed.2⟩
  | .comma :: more => exact .inr ⟨Option.some.inj placed.1.2, more, rfl, placed.2⟩

/-- An operand has to come next: one is expected, and no parenthesis of a call is closed at once. -/
structure Demands (stack : List Bool) (previous : Option Lexeme) (ts : List Lexeme) : Prop where
  expects : expectsOperand previous = true
  filled : previous = some .leftParen → stack.head? = some true → ts.head? ≠ some .rightParen

theorem demands_operator (stack : List Bool) (op : BinaryOp) (ts : List Lexeme) :
    Demands stack (some (.operator op)) ts :=
  ⟨rfl, by intro none; cases none⟩

theorem demands_comma (stack : List Bool) (ts : List Lexeme) : Demands stack (some .comma) ts :=
  ⟨rfl, by intro none; cases none⟩

/-- Where an operand has to come, a placed row that is not longer starts with a sum. -/
def SplitsUpTo (bound : Nat) : Prop :=
  ∀ (stack : List Bool) (previous : Option Lexeme) (ts : List Lexeme), ts.length ≤ bound →
    Demands stack previous ts → Placed stack previous ts → Splits stack ts

section

variable {bound : Nat} {stack : List Bool}

/-- The arguments of a call are not longer than what is behind its parenthesis. -/
theorem SplitsUpTo.arguments (splits : SplitsUpTo bound) (previous : Option Lexeme)
    (ts : List Lexeme) (short : ts.length ≤ bound) (demands : Demands (true :: stack) previous ts)
    (placed : Placed (true :: stack) previous ts) : SplitsArguments stack ts := by
  induction size : ts.length using Nat.strong_induction_on generalizing previous ts with
  | _ n ih =>
      obtain ⟨us, e, phrase, ⟨rest, rfl, closed⟩ | ⟨-, rest, rfl, more⟩⟩ :=
        (splits (true :: stack) previous ts short demands placed).inside
      · refine ⟨[(us, e)], rest, List.cons_ne_nil _ _, ?_, ?_, closed⟩
        · rw [List.map_singleton, List.intercalate_singleton]
        · intro a inside
          cases List.mem_singleton.1 inside
          exact phrase
      · have shorter : rest.length < n := by
          rw [← size, List.length_append, List.length_cons]
          omega
        obtain ⟨arguments, rest, present, rfl, phrases, closed⟩ :=
          ih rest.length shorter (some .comma) rest (by omega) (demands_comma _ _) more rfl
        refine ⟨(us, e) :: arguments, rest, List.cons_ne_nil _ _, ?_, ?_, closed⟩
        · rw [List.map_cons, List.intercalate_cons_of_ne_nil (by simpa using present)]
          simp only [List.append_assoc, List.cons_append, List.nil_append]
        · intro a inside
          rcases List.mem_cons.1 inside with rfl | inside
          · exact phrase
          · exact phrases a inside

/-- A row that starts with an operand, one lexeme longer at most: what is behind the operand is
shorter. -/
theorem SplitsUpTo.operand (splits : SplitsUpTo bound) {us rest : List Lexeme} {last : Lexeme}
    (nonempty : us ≠ []) (short : (us ++ rest).length ≤ bound + 1) (atom : Derivable .atom us)
    (ended : expectsOperand (some last) = false)
    (uncalled : last.isIdentifier = true → rest.head? ≠ some .leftParen)
    (placed : Placed stack (some last) rest) : Splits stack (us ++ rest) := by
  apply splits_of_atom atom ended uncalled placed
  intro op more follows placed
  have longer := List.length_pos_of_ne_nil nonempty
  apply splits stack (some (.operator op)) more _ (demands_operator stack op more) placed
  rw [follows, List.length_append, List.length_cons] at short
  omega

theorem SplitsUpTo.group (splits : SplitsUpTo bound) {ts : List Lexeme} (short : ts.length ≤ bound)
    (placed : Placed (false :: stack) (some .leftParen) ts) :
    Splits stack (.leftParen :: ts) := by
  have demands : Demands (false :: stack) (some .leftParen) ts :=
    ⟨rfl, by intro _ isCall; cases isCall⟩
  obtain ⟨us, e, phrase, ⟨rest, rfl, outside⟩ | ⟨isCall, -⟩⟩ :=
    (splits (false :: stack) (some .leftParen) ts short demands placed).inside
  · have written : .leftParen :: (us ++ .rightParen :: rest) =
        .leftParen :: us ++ [.rightParen] ++ rest := by simp
    rw [written]
    refine splits.operand (List.cons_ne_nil _ _) ?_ ⟨e, .group phrase⟩ rfl
      (by intro named; cases named) outside
    rw [← written]
    exact Nat.succ_le_succ short
  · cases isCall

theorem SplitsUpTo.call (splits : SplitsUpTo bound) (name : String) {ts : List Lexeme}
    (short : ts.length < bound) (placed : Placed (true :: stack) (some .leftParen) ts) :
    Splits stack (.identifier name :: .leftParen :: ts) := by
  have operand (us rest : List Lexeme) (nonempty : us ≠ [])
      (written : .identifier name :: .leftParen :: ts = us ++ rest) (atom : Derivable .atom us)
      (outside : Placed stack (some .rightParen) rest) :
      Splits stack (.identifier name :: .leftParen :: ts) := by
    rw [written]
    refine splits.operand nonempty ?_ atom rfl (by intro named; cases named) outside
    rw [← written]
    exact Nat.succ_le_succ short
  by_cases closed : ts.head? = some .rightParen
  · obtain ⟨rest, rfl⟩ := List.head?_eq_some_iff.1 closed
    exact operand [.identifier name, .leftParen, .rightParen] rest (List.cons_ne_nil _ _) rfl
      ⟨_, .call name [] (List.forall_mem_nil _)⟩ placed.2
  · obtain ⟨arguments, rest, -, rfl, phrases, outside⟩ :=
      splits.arguments (some .leftParen) ts (Nat.le_of_lt short) ⟨rfl, fun _ _ => closed⟩ placed
    refine operand (.identifier name :: .leftParen ::
      [Lexeme.comma].intercalate (arguments.map Prod.fst) ++ [.rightParen]) rest
      (List.cons_ne_nil _ _) ?_ ⟨_, .call name arguments phrases⟩ outside
    simp only [List.cons_append, List.append_assoc, List.nil_append]

end

/-- Placed rows of any length split. The induction is on the length, as both what is in parentheses
and what is behind an operand has to be split. -/
theorem splitsUpTo (bound : Nat) : SplitsUpTo bound := by
  induction bound with
  | zero =>
      intro stack previous ts short demands placed
      cases List.length_eq_zero_iff.1 (Nat.le_zero.1 short)
      have expects := demands.expects
      rw [placed.2] at expects
      cases expects
  | succ bound ih =>
      intro stack previous ts short demands placed
      have expects := demands.expects
      cases ts with
      | nil =>
          rw [placed.2] at expects
          cases expects
      | cons t rest =>
          have shorter : rest.length ≤ bound := Nat.le_of_succ_le_succ short
          obtain ⟨fits, behind⟩ := placed
          cases t with
          | number text =>
              exact ih.operand (List.cons_ne_nil _ []) short ⟨_, .number text⟩ rfl
                (by intro named; cases named) behind
          | operator op =>
              cases fits expects
              exact splits_negated
                (ih stack _ rest shorter (demands_operator stack .sub rest) behind)
          | comma =>
              rw [fits.1] at expects
              cases expects
          | rightParen =>
              rcases fits with ⟨ended, -⟩ | ⟨opened, isCall⟩
              · rw [ended] at expects
                cases expects
              · exact absurd rfl (demands.filled opened isCall)
          | leftParen =>
              rw [stackAfter, expects] at behind
              exact ih.group shorter behind
          | identifier name =>
              by_cases called : rest.head? = some .leftParen
              · obtain ⟨inside, rfl⟩ := List.head?_eq_some_iff.1 called
                exact ih.call name shorter behind.2
              · exact ih.operand (List.cons_ne_nil _ []) short ⟨_, .identifier name⟩ rfl
                  (fun _ => called) behind

theorem derivable_of_placed {ts : List Lexeme} (placed : Placed [] none ts) :
    Derivable .sum ts := by
  obtain ⟨us, rest, last, rfl, derived, ends, -, placed⟩ :=
    splitsUpTo ts.length [] none ts (Nat.le_refl _) ⟨rfl, by intro none; cases none⟩ placed
  match rest with
  | [] => rwa [List.append_nil]
  | .comma :: _ => cases placed.1.2
  | .rightParen :: _ =>
      rcases placed.1 with ⟨-, opened⟩ | ⟨-, isCall⟩
      · exact absurd rfl opened
      · cases isCall

end Lexeme

end Formula
