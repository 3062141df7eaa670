import Formula.Proofs.Expr.Mirrors
import Formula.Proofs.Simplify.Rewrites

/-!
Simplification respects equality. The rules look at their operands in an order and write exponents
in an order, but mirrored operands fall under the same rule, and what the rule makes of them is
mirrored. So mirrored expressions are simplified to mirrored ones.
-/

set_option autoImplicit false

namespace Formula.Expr

/-! ### Rules on mirrored operands -/

section

variable {left left' right right' e f : Expr} {as bs : List Expr}

theorem Mirrors.isConstant_eq (mirrors : Mirrors e f) (value : Float) :
    e.isConstant value = f.isConstant value := by
  cases mirrors with
  | const related => rw [related]
  | _ => rfl

theorem Matches.isVariable_eq {r : Float → Float → Prop} (matched : Matches r e f) (name : String) :
    e.isVariable name = f.isVariable name := by
  cases matched <;> rfl

theorem rel_ite {α : Type} {r : α → α → Prop} {c : Prop} [Decidable c] {a a' b b' : α}
    (first : r a a') (second : r b b') : r (if c then a else b) (if c then a' else b') := by
  by_cases holds : c
  · rw [if_pos holds, if_pos holds]
    exact first
  · rw [if_neg holds, if_neg holds]
    exact second

/-- Two tests can be made in either order if it does not matter which of two results is taken where
both hold. -/
theorem rel_ite_swap {α : Type} {r : α → α → Prop} {p q : Prop} [Decidable p] [Decidable q]
    {a a' b b' c : α} (first : r a a') (second : r b b') (neither : r c c)
    (both : p → q → r a b') :
    r (if p then a else if q then b else c) (if q then b' else if p then a' else c) := by
  by_cases holds : p
  · by_cases holds' : q
    · rw [if_pos holds, if_pos holds']
      exact both holds holds'
    · rw [if_pos holds, if_neg holds', if_pos holds]
      exact first
  · rw [if_neg holds, if_neg holds]
    exact rel_ite second neither

theorem Mirrors.identity? (op : BinaryOp) (first : Mirrors left left')
    (second : Mirrors right right') :
    Option.Rel Mirrors (identity? op left right) (identity? op left' right') := by
  cases op with
  | add =>
      simp only [Expr.identity?, first.isConstant_eq, second.isConstant_eq]
      exact rel_ite (.some second) (rel_ite (.some first) .none)
  | sub =>
      simp only [Expr.identity?, second.isConstant_eq]
      exact rel_ite (.some first) .none
  | mul =>
      simp only [Expr.identity?, first.isConstant_eq, second.isConstant_eq]
      exact rel_ite (.some (.refl .zero)) (rel_ite (.some second) (rel_ite (.some first) .none))
  | div =>
      simp only [Expr.identity?, first.isConstant_eq, second.isConstant_eq]
      exact rel_ite (.some (.refl .zero)) (rel_ite (.some first) .none)
  | pow =>
      simp only [Expr.identity?, first.isConstant_eq, second.isConstant_eq]
      exact rel_ite (.some first) (rel_ite (.some (.refl .one))
        (rel_ite (.some (.refl .one)) (rel_ite (.some (.refl .zero)) .none)))

/-- Powers of one variable, with mirrored exponents. -/
def MirroredPowers (p q : String × Expr) : Prop := p.1 = q.1 ∧ Mirrors p.2 q.2

theorem Mirrors.powerForm? (mirrors : Mirrors e f) :
    Option.Rel MirroredPowers (powerForm? e) (powerForm? f) := by
  cases mirrors with
  | var x => exact .some ⟨rfl, .refl .one⟩
  | bin op first second =>
      cases op with
      | pow =>
          cases first with
          | var x => exact .some ⟨rfl, second⟩
          | _ => exact .none
      | _ => exact .none
  | swapped commutes =>
      rcases BinaryOp.commutes_cases commutes with rfl | rfl
      · exact .none
      · exact .none
  | _ => exact .none

/-- Quotients by one variable, with mirrored dividends. -/
def MirroredQuotients (p q : Expr × String) : Prop := Mirrors p.1 q.1 ∧ p.2 = q.2

theorem Mirrors.overVariable? (mirrors : Mirrors e f) :
    Option.Rel MirroredQuotients (overVariable? e) (overVariable? f) := by
  cases mirrors with
  | bin op first second =>
      cases op with
      | div =>
          cases second with
          | var x => exact .some ⟨first, rfl⟩
          | _ => exact .none
      | _ => exact .none
  | swapped commutes =>
      rcases BinaryOp.commutes_cases commutes with rfl | rfl
      · exact .none
      · exact .none
  | _ => exact .none

/-- Two powers of one variable each, with mirrored exponents. -/
def MirroredBases (p q : String × Expr × Expr) : Prop :=
  p.1 = q.1 ∧ Mirrors p.2.1 q.2.1 ∧ Mirrors p.2.2 q.2.2

theorem Mirrors.commonBase? (first : Mirrors left left') (second : Mirrors right right') :
    Option.Rel MirroredBases (commonBase? left right) (commonBase? left' right') := by
  have form := first.powerForm?
  have form' := second.powerForm?
  rw [Expr.commonBase?, Expr.commonBase?]
  generalize Expr.powerForm? left = p, Expr.powerForm? left' = p' at form ⊢
  generalize Expr.powerForm? right = q, Expr.powerForm? right' = q' at form' ⊢
  cases form with
  | none => exact .none
  | some same =>
      cases form' with
      | none => exact .none
      | some same' =>
          dsimp only
          rw [same.1, same'.1]
          exact rel_ite (.some ⟨rfl, same.2, same'.2⟩) .none

theorem Mirrors.timesQuotient? (first : Mirrors left left') (second : Mirrors right right') :
    Option.Rel Mirrors (timesQuotient? left right) (timesQuotient? left' right') := by
  have form := first.powerForm?
  have quotient := second.overVariable?
  rw [Expr.timesQuotient?, Expr.timesQuotient?]
  generalize Expr.powerForm? left = p, Expr.powerForm? left' = p' at form ⊢
  generalize Expr.overVariable? right = q, Expr.overVariable? right' = q' at quotient ⊢
  cases quotient with
  | none => exact .none
  | some same =>
      cases form with
      | some same' =>
          dsimp only
          rw [same.2, same'.1]
          apply rel_ite _ .none
          apply Option.Rel.some
          apply Matches.bin .mul same.1
          exact .bin .pow (.var _) (.bin .sub same'.2 (Mirrors.refl .one))
      | none =>
          dsimp only
          rw [same.2, same.1.isConstant_eq]
          cases first with
          | const related => exact rel_ite (.some (.bin .div (.const related) (.var _))) .none
          | _ => exact .none

/-- Whether the variable stands left or right of the other factor, the other factor is left over. If
both are the variable, either is. -/
theorem Mirrors.cancelled? (first : Mirrors left left') (second : Mirrors right right') :
    Option.Rel Mirrors (cancelled? left right) (cancelled? left' right') := by
  cases first with
  | bin op a b =>
      cases op with
      | mul =>
          cases second with
          | var x =>
              simp only [Expr.cancelled?, a.isVariable_eq, b.isVariable_eq]
              exact rel_ite (.some a) (rel_ite (.some b) .none)
          | _ => exact .none
      | _ => exact .none
  | swapped commutes a b =>
      rcases BinaryOp.commutes_cases commutes with rfl | rfl
      · exact .none
      · cases second with
        | var x =>
            simp only [Expr.cancelled?, ← a.isVariable_eq, ← b.isVariable_eq]
            apply rel_ite_swap (.some a) (.some b) .none
            intro isRight isLeft
            rw [(isVariable_iff x _).1 isLeft] at a ⊢
            rw [(isVariable_iff x _).1 isRight] at b
            exact .some b
        | _ => exact .none
  | _ => exact .none

theorem Mirrors.negated? (mirrors : Mirrors e f) : Option.Rel Mirrors (negated? e) (negated? f) := by
  cases mirrors with
  | const related =>
      rw [related]
      exact .some (.refl _)
  | neg operand => exact .some operand
  | _ => exact .none

theorem constants?_mirrors (each : List.Forall₂ Mirrors as bs) :
    constants? as = constants? bs := by
  induction each with
  | nil => rfl
  | cons head _ ih =>
      cases head with
      | const related => rw [constants?, constants?, ih, related]
      | _ => rfl

theorem foldedCall?_mirrors (strict : Bool) (name : String) (each : List.Forall₂ Mirrors as bs) :
    foldedCall? strict name as = foldedCall? strict name bs := by
  rw [foldedCall?, foldedCall?, foldCall, foldCall, constants?_mirrors each]

/-! ### Operations -/

/-- Reductions of one kind to mirrored expressions. -/
inductive Reduction.Alike : Reduction → Reduction → Prop
  | none : Alike .none .none
  | settled {e f : Expr} (mirrors : Mirrors e f) : Alike (.settled e) (.settled f)
  | again {e f : Expr} (mirrors : Mirrors e f) : Alike (.again e) (.again f)

theorem powerRule_straight (op : BinaryOp) (first : Mirrors left left')
    (second : Mirrors right right') :
    (powerRule op left right).Alike (powerRule op left' right') := by
  have common := first.commonBase? second
  cases op with
  | mul =>
      have times := first.timesQuotient? second
      have times' := second.timesQuotient? first
      rw [powerRule, powerRule]
      generalize commonBase? left right = p, commonBase? left' right' = p' at common ⊢
      generalize timesQuotient? left right = q, timesQuotient? left' right' = q' at times ⊢
      generalize timesQuotient? right left = t, timesQuotient? right' left' = t' at times' ⊢
      cases times with
      | some mirrors => exact .again mirrors
      | none =>
          cases times' with
          | some mirrors => exact .again mirrors
          | none =>
              cases common with
              | some mirrors =>
                  apply Reduction.Alike.again
                  rw [mirrors.1]
                  exact .bin .pow (.var _) (.bin .add mirrors.2.1 mirrors.2.2)
              | none => exact .none
  | div =>
      have cancelled := first.cancelled? second
      rw [powerRule, powerRule]
      generalize commonBase? left right = p, commonBase? left' right' = p' at common ⊢
      generalize cancelled? left right = q, cancelled? left' right' = q' at cancelled ⊢
      cases cancelled with
      | some mirrors => exact .settled mirrors
      | none =>
          cases common with
          | some mirrors =>
              apply Reduction.Alike.again
              rw [mirrors.1]
              exact .bin .pow (.var _) (.bin .sub mirrors.2.1 mirrors.2.2)
          | none => exact .none
  | _ => exact .none

theorem reduce_straight (op : BinaryOp) (first : Mirrors left left')
    (second : Mirrors right right') : (reduce op left right).Alike (reduce op left' right') := by
  have identity := first.identity? op second
  rw [reduce, reduce]
  generalize identity? op left right = p, identity? op left' right' = p' at identity ⊢
  cases identity with
  | some mirrors => exact .settled mirrors
  | none => exact powerRule_straight op first second

/-- A quotient and a factor do not change their parts when they change places. -/
theorem timesQuotient?_one_way (found : timesQuotient? left right = some e) :
    timesQuotient? right left = none := by
  obtain ⟨x, c, a, power, rfl, -⟩ | ⟨x, c, value, -, rfl, rfl, -⟩ := timesQuotient?_cases found
  · cases power <;> rfl
  · rfl

theorem commonBase?_swap (left right : Expr) :
    commonBase? right left = (commonBase? left right).map fun p => (p.1, p.2.2, p.2.1) := by
  rw [commonBase?, commonBase?]
  cases powerForm? left with
  | none => cases powerForm? right <;> rfl
  | some p =>
      cases powerForm? right with
      | none => rfl
      | some q =>
          dsimp only
          by_cases same : p.1 = q.1
          · rw [if_pos same, if_pos same.symm, same]
            rfl
          · rw [if_neg same, if_neg (Ne.symm same)]
            rfl

theorem powerRule_swap (left right : Expr) :
    (powerRule .mul left right).Alike (powerRule .mul right left) := by
  rw [powerRule, powerRule, commonBase?_swap left right]
  cases found : timesQuotient? left right with
  | some e =>
      rw [timesQuotient?_one_way found]
      exact .again (.refl e)
  | none =>
      cases timesQuotient? right left with
      | some e => exact .again (.refl e)
      | none =>
          cases commonBase? left right with
          | none => exact .none
          | some p =>
              apply Reduction.Alike.again
              exact .bin .pow (.var _) (.swapped rfl (Mirrors.refl _) (Mirrors.refl _))

theorem eq_one_of_isConstant (one : e.isConstant 1.0 = true) : e = .one := by
  cases e with
  | const value =>
      obtain ⟨-, -, same | ⟨-, zero⟩ | ⟨-, zero⟩⟩ := Float.beq_iff_ne_nan_and_eq.1 one
      · rw [same, Expr.one]
      · exact absurd zero (by decide)
      · exact absurd zero (by decide)
  | _ => cases one

/-- It does not matter which operand is looked at first, unless both are zeros of different signs. -/
theorem identity?_swap {op : BinaryOp} (commutes : op.commutes = true)
    (zeros : left.isConstant 0.0 = true → ¬ right.isConstant 0.0 = true) :
    identity? op left right = identity? op right left := by
  rcases BinaryOp.commutes_cases commutes with rfl | rfl
  · rw [identity?, identity?]
    exact rel_ite_swap rfl rfl rfl fun zero zero' => absurd zero' (zeros zero)
  · rw [identity?, identity?, Bool.or_comm]
    apply rel_ite rfl
    apply rel_ite_swap rfl rfl rfl
    intro one one'
    rw [eq_one_of_isConstant one, eq_one_of_isConstant one']

theorem foldBinary_mirrors (strict : Bool) (op : BinaryOp) (first : Mirrors left left')
    (second : Mirrors right right') :
    foldBinary strict op left right = foldBinary strict op left' right' := by
  cases first with
  | const related =>
      cases second with
      | const related' => rw [related, related']
      | _ => rfl
  | _ => rfl

theorem foldBinary_swap (strict : Bool) {op : BinaryOp} (commutes : op.commutes = true)
    (left right : Expr) : foldBinary strict op left right = foldBinary strict op right left := by
  cases left with
  | const a =>
      cases right with
      | const b => rw [foldBinary, foldBinary, BinaryOp.value_swap commutes]
      | _ => rfl
  | _ => cases right <;> rfl

/-- Sums and products of zeros have a value, also in strict arithmetic. -/
theorem foldBinary_zeros (strict : Bool) {op : BinaryOp} (commutes : op.commutes = true)
    (zero : left.isConstant 0.0 = true) (zero' : right.isConstant 0.0 = true) :
    ∃ v, foldBinary strict op left right = .value v := by
  cases left with
  | const a =>
      cases right with
      | const b =>
          have finite : (op.plain a b).isInf = false := by
            rcases BinaryOp.commutes_cases commutes with rfl | rfl <;>
              rcases Decimal.eq_zero_of_beq zero with rfl | rfl <;>
              rcases Decimal.eq_zero_of_beq zero' with rfl | rfl <;> decide
          refine ⟨op.plain a b, ?_⟩
          rw [foldBinary, BinaryOp.value_of_commutes commutes, checkOverflow, finite,
            Bool.and_false, Bool.false_and, if_neg Bool.false_ne_true]
      | _ => cases zero'
  | _ => cases zero

theorem reduce_swap {op : BinaryOp} (commutes : op.commutes = true)
    (zeros : left.isConstant 0.0 = true → ¬ right.isConstant 0.0 = true) :
    (reduce op left right).Alike (reduce op right left) := by
  rw [reduce, reduce, identity?_swap commutes zeros]
  cases identity? op right left with
  | some e => exact .settled (.refl e)
  | none =>
      rcases BinaryOp.commutes_cases commutes with rfl | rfl
      · exact .none
      · exact powerRule_swap left right

/-- Steps of one kind to mirrored expressions. -/
inductive Next.Alike : Next → Next → Prop
  | keep : Alike .keep .keep
  | settle {e f : Expr} (mirrors : Mirrors e f) : Alike (.settle e) (.settle f)
  | again {e f : Expr} (mirrors : Mirrors e f) : Alike (.again e) (.again f)

theorem Next.Alike.trans {n m k : Next} (first : n.Alike m) (second : m.Alike k) : n.Alike k := by
  cases first with
  | keep => exact second
  | settle mirrors =>
      cases second with
      | settle more => exact .settle (mirrors.trans more)
  | again mirrors =>
      cases second with
      | again more => exact .again (mirrors.trans more)

theorem Next.Alike.eq_keep {n : Next} (alike : Next.keep.Alike n) : n = .keep := by
  cases alike
  rfl

theorem Next.Alike.eq_settle {n : Next} (alike : (Next.settle e).Alike n) :
    ∃ f, n = .settle f ∧ Mirrors e f := by
  cases alike with
  | settle mirrors => exact ⟨_, rfl, mirrors⟩

theorem Next.Alike.eq_again {n : Next} (alike : (Next.again e).Alike n) :
    ∃ f, n = .again f ∧ Mirrors e f := by
  cases alike with
  | again mirrors => exact ⟨_, rfl, mirrors⟩

/-- Operations that fold alike take the same step if they reduce alike where they do not fold. -/
theorem nextBinary_alike {strict : Bool} {op : BinaryOp}
    (folds : foldBinary strict op left right = foldBinary strict op left' right')
    (reduces : (∀ v, foldBinary strict op left right ≠ .value v) →
      (reduce op left right).Alike (reduce op left' right')) :
    (nextBinary strict op left right).Alike (nextBinary strict op left' right') := by
  rw [nextBinary, nextBinary, ← folds]
  split
  · exact .settle (.refl _)
  · next unfolded =>
      have alike := reduces unfolded
      generalize reduce op left right = p, reduce op left' right' = p' at alike ⊢
      cases alike with
      | none => exact .keep
      | settled mirrors => exact .settle mirrors
      | again mirrors => exact .again mirrors

theorem nextBinary_straight (strict : Bool) (op : BinaryOp) (first : Mirrors left left')
    (second : Mirrors right right') :
    (nextBinary strict op left right).Alike (nextBinary strict op left' right') :=
  nextBinary_alike (foldBinary_mirrors strict op first second) fun _ =>
    reduce_straight op first second

theorem nextBinary_swap (strict : Bool) {op : BinaryOp} (commutes : op.commutes = true)
    (left right : Expr) :
    (nextBinary strict op left right).Alike (nextBinary strict op right left) := by
  apply nextBinary_alike (foldBinary_swap strict commutes left right)
  intro unfolded
  apply reduce_swap commutes
  intro zero zero'
  obtain ⟨v, folded⟩ := foldBinary_zeros strict commutes zero zero'
  exact unfolded v folded

/-- Mirrored operations take the same step, to mirrored expressions. -/
theorem Mirrors.nextBinary {op : BinaryOp} (strict : Bool)
    (mirrors : Mirrors (.bin op left right) (.bin op left' right')) :
    (nextBinary strict op left right).Alike (nextBinary strict op left' right') := by
  cases mirrors with
  | bin _ first second => exact nextBinary_straight strict op first second
  | swapped commutes first second =>
      exact (nextBinary_straight strict op first second).trans (nextBinary_swap strict commutes _ _)

end

/-! ### Runs -/

/-- An expression that mirrors an operation is an operation, and mirrors it with other operands that
mirror each other. -/
theorem Mirrors.operands {op : BinaryOp} {left left' right right' f : Expr} {g : Expr → Expr}
    (mirrors : Mirrors (.bin op left right) f) (first : ∀ h, Mirrors left h → Mirrors left' (g h))
    (second : ∀ h, Mirrors right h → Mirrors right' (g h)) :
    ∃ a b, f = .bin op a b ∧ Mirrors (.bin op left' right') (.bin op (g a) (g b)) := by
  cases mirrors with
  | bin _ straight straight' =>
      exact ⟨_, _, rfl, .bin op (first _ straight) (second _ straight')⟩
  | swapped commutes crossed crossed' =>
      exact ⟨_, _, rfl, .swapped commutes (first _ crossed) (second _ crossed')⟩

theorem each_of_parts {g : Expr → Expr} {parts : List (Expr × Expr)} {bs : List Expr}
    (together : List.Forall₂ Mirrors (parts.map Prod.fst) bs)
    (each : ∀ p ∈ parts, ∀ f, Mirrors p.1 f → Mirrors p.2 (g f)) :
    List.Forall₂ Mirrors (parts.map Prod.snd) (bs.map g) := by
  rw [List.forall₂_map_left_iff] at together ⊢
  rw [List.forall₂_map_right_iff]
  exact ((List.forall₂_and_left parts bs).2 ⟨each, together⟩).imp fun p f both => both.1 f both.2

theorem mirrors_of_rewrites {strict : Bool} (level : Level) {e s : Expr}
    (rewrites : Rewrites strict e s) (f : Expr) (mirrors : Mirrors e f) :
    Mirrors s (simplify strict level f).tree := by
  -- On the run for the one expression: `f` is open because a rule over powers builds a new expression,
  -- which the run for the other one mirrors but does not repeat.
  induction rewrites generalizing f with
  | const value =>
      cases mirrors with
      | const related =>
          rw [simplify_const]
          exact .const related
  | var name =>
      cases mirrors
      rw [simplify_var]
      exact .var name
  | negKept _ kept ih =>
      cases mirrors with
      | neg operand =>
          have below := ih _ operand
          have step := below.negated?
          rw [kept] at step
          rw [tree_simplify_neg]
          generalize Expr.negated? _ = p at step ⊢
          cases step
          exact .neg below
  | negGone _ gone ih =>
      cases mirrors with
      | neg operand =>
          have step := (ih _ operand).negated?
          rw [gone] at step
          rw [tree_simplify_neg]
          generalize Expr.negated? _ = p at step ⊢
          cases step with
          | some mirrors => exact mirrors
  | callKept name parts _ kept ih =>
      cases mirrors with
      | call _ together =>
          have below := each_of_parts together ih
          rw [foldedCall?_mirrors strict name below] at kept
          rw [tree_simplify_call, trees_simplifyAll, kept]
          exact .call name below
  | callFolded name parts _ folded ih =>
      cases mirrors with
      | call _ together =>
          rw [foldedCall?_mirrors strict name (each_of_parts together ih)] at folded
          rw [tree_simplify_call, trees_simplifyAll, folded]
          exact .refl _
  | binKept _ _ kept first second =>
      obtain ⟨a, b, rfl, below⟩ := mirrors.operands first second
      have step := below.nextBinary strict
      rw [kept] at step
      rw [tree_simplify_bin, step.eq_keep]
      exact below
  | binSettled _ _ settled first second =>
      obtain ⟨a, b, rfl, below⟩ := mirrors.operands first second
      have step := below.nextBinary strict
      rw [settled] at step
      obtain ⟨g, taken, mirrors⟩ := step.eq_settle
      rw [tree_simplify_bin, taken]
      exact mirrors
  | binAgain _ _ again _ first second more =>
      obtain ⟨a, b, rfl, below⟩ := mirrors.operands first second
      have step := below.nextBinary strict
      rw [again] at step
      obtain ⟨g, taken, mirrors⟩ := step.eq_again
      rw [tree_simplify_bin, taken]
      exact more g mirrors

theorem Mirrors.simplify (strict : Bool) (level : Level) {e f : Expr} (mirrors : Mirrors e f) :
    Mirrors (simplify strict level e).tree (simplify strict level f).tree :=
  mirrors_of_rewrites level (rewrites_simplify strict level e) f mirrors

end Formula.Expr
