import Formula.Proofs.Yard.Levels

/-!
The run over levels is the run of the yard. Each operation of the yard, on the three stacks that
levels stand for, does what the operation on levels does, failures included.
-/

set_option autoImplicit false

namespace Formula.Yard.Levels

theorem applyOperator_append (op : Operator) (parts out : List Expr) (position : Nat) :
    applyOperator op out.length position (parts ++ out) =
      match op.applyTo parts with
      | some parts => .ok (parts ++ out)
      | none => reject (.missingOperand position) := by
  cases op with
  | negate =>
      cases parts with
      | nil => simp [applyOperator, Operator.applyTo]
      | cons a parts =>
          have enough : ¬ (a :: (parts ++ out)).length < out.length + 1 := by
            simp only [List.length_cons, List.length_append]
            omega
          simp only [List.cons_append, applyOperator, enough, ↓reduceIte, Operator.applyTo]
  | binary op =>
      match parts with
      | [] => simp [applyOperator, Operator.applyTo]
      | [b] => simp [applyOperator, Operator.applyTo]
      | b :: a :: parts =>
          have enough : ¬ (b :: a :: (parts ++ out)).length < out.length + 2 := by
            simp only [List.length_cons, List.length_append]
            omega
          simp only [List.cons_append, applyOperator, enough, ↓reduceIte, Operator.applyTo]

theorem base_framesOf (outer : List (Opening × Level)) :
    base (framesOf outer) = (outerOutput outer).length := by
  cases outer <;> rfl

theorem length_framesOf (outer : List (Opening × Level)) :
    (framesOf outer).length = outer.length := by
  induction outer with
  | nil => rfl
  | cons level rest ih => simp only [framesOf, List.length_cons, ih]

variable (outer : List (Opening × Level)) (position : Nat)

/-- Around the innermost level nothing waits, or an open parenthesis does. -/
theorem applyPreceding_levels (incoming : Operator) (ops : List Operator) (parts : List Expr) :
    applyPreceding incoming (outerOutput outer).length position
        (ops.map .operator ++ outerWaiting outer) (parts ++ outerOutput outer) =
      match incoming.foldPreceding ops parts with
      | some (ops, parts) =>
        .ok (ops.map .operator ++ outerWaiting outer, parts ++ outerOutput outer)
      | none => reject (.missingOperand position) := by
  induction ops generalizing parts with
  | nil => cases outer <;> rfl
  | cons op ops ih =>
      simp only [List.map_cons, List.cons_append, applyPreceding, Operator.foldPreceding]
      by_cases precedes : op.precedes incoming = true
      · simp only [precedes, ↓reduceIte, applyOperator_append]
        cases op.applyTo parts with
        | none => rfl
        | some parts => exact ih parts
      · simp only [precedes, Bool.false_eq_true, ↓reduceIte, List.map_cons, List.cons_append]

theorem applyToParen_levels (ops : List Operator) (parts : List Expr) :
    applyToParen (outerOutput outer).length position
        (ops.map .operator ++ outerWaiting outer) (parts ++ outerOutput outer) =
      match Operator.foldAll ops parts with
      | some parts => .ok (outerWaiting outer, parts ++ outerOutput outer)
      | none => reject (.missingOperand position) := by
  induction ops generalizing parts with
  | nil => cases outer <;> rfl
  | cons op ops ih =>
      simp only [List.map_cons, List.cons_append, applyToParen, applyOperator_append,
        Operator.foldAll]
      cases op.applyTo parts with
      | none => rfl
      | some parts => exact ih parts

theorem applyAll_levels (ops : List Operator) (parts : List Expr) :
    applyAll (outerOutput outer).length position
        (ops.map .operator ++ outerWaiting outer) (parts ++ outerOutput outer) =
      match Operator.foldAll ops parts, outer with
      | none, _ => reject (.missingOperand position)
      | some _, (o, _) :: _ => reject (.unclosedOpen o.position)
      | some parts, [] => .ok parts := by
  induction ops generalizing parts with
  | nil =>
      cases outer with
      | nil => simp only [List.map_nil, outerWaiting, outerOutput, List.append_nil, applyAll,
          Operator.foldAll]
      | cons level rest => rfl
  | cons op ops ih =>
      simp only [List.map_cons, List.cons_append, applyAll, applyOperator_append,
        Operator.foldAll]
      cases op.applyTo parts with
      | none => rfl
      | some parts => exact ih parts

theorem toYard_putPart (s : Levels) (e : Expr) (settled : s.callee = none) :
    s.toYard.putPart e = (s.putPart e).toYard := by
  simp only [Yard.putPart, putPart, toYard, settled, List.cons_append]

theorem toYard_putIdentifier (s : Levels) (name : String) (position : Nat) (isCalled : Bool)
    (settled : s.callee = none) :
    s.toYard.putIdentifier name position isCalled =
      (s.putIdentifier name position isCalled).toYard := by
  cases isCalled with
  | true =>
      simp only [Yard.putIdentifier, putIdentifier, toYard, settled, callMarker, ↓reduceIte,
        List.nil_append, List.cons_append]
  | false =>
      simp only [Yard.putIdentifier, putIdentifier, Bool.false_eq_true, ↓reduceIte]
      exact toYard_putPart s _ settled

theorem toYard_putOperator (s : Levels) (op : Operator) (position : Nat)
    (settled : s.callee = none) :
    s.toYard.putOperator op position = (s.putOperator op position).map toYard := by
  simp only [Yard.putOperator, putOperator, toYard, settled, callMarker, List.nil_append,
    base_framesOf, applyPreceding_levels]
  cases op.foldPreceding s.inner.operators s.inner.parts with
  | none => rfl
  | some folded => simp only [bind, Except.bind, pure, Except.pure, Except.map, toYard,
      callMarker, List.nil_append, List.map_cons, List.cons_append]

theorem opensCall_toYard (s : Levels) : opensCall s.toYard.waiting = s.callee.isSome := by
  obtain ⟨⟨ops, parts⟩, outer, callee⟩ := s
  cases callee with
  | some call => rfl
  | none => cases ops <;> cases outer <;> rfl

theorem toYard_openParen (limit : Option Int) (s : Levels) (position : Nat) :
    s.toYard.openParen limit position = (s.openParen limit position).map toYard := by
  have frames : s.toYard.frames = framesOf s.outer := rfl
  simp only [Yard.openParen, openParen, opensCall_toYard, frames]
  cases isFull limit (framesOf s.outer) with
  | some n => rfl
  | none =>
      obtain ⟨inner, outer, callee⟩ := s
      cases callee <;> rfl

theorem toYard_endArgument (s : Levels) (position : Nat) (settled : s.callee = none) :
    s.toYard.endArgument position = (s.endArgument position).map toYard := by
  obtain ⟨⟨ops, parts⟩, outer, callee⟩ := s
  cases settled
  simp only [Yard.endArgument, endArgument, toYard, callMarker, List.nil_append,
    base_framesOf, applyToParen_levels]
  cases Operator.foldAll ops parts with
  | none => rfl
  | some parts =>
      cases outer with
      | nil => rfl
      | cons first rest =>
          obtain ⟨o, level⟩ := first
          cases o with
          | group opened => rfl
          | call name place opened commas =>
              simp only [framesOf, Opening.isCall, Opening.commas, Bool.not_true,
                Bool.false_eq_true, ↓reduceIte, outerOutput, List.length_append,
                Nat.add_sub_cancel_right, bind, Except.bind]
              split
              · rfl
              · split
                · rfl
                · simp only [Except.map, toYard, callMarker, List.nil_append, List.map_nil,
                    outerWaiting, Opening.position, Opening.caller, outerOutput, framesOf,
                    Opening.isCall, Opening.commas, List.length_append]

theorem toYard_closeParen (s : Levels) (position : Nat) (settled : s.callee = none) :
    s.toYard.closeParen position = (s.closeParen position).map toYard := by
  obtain ⟨⟨ops, parts⟩, outer, callee⟩ := s
  cases settled
  simp only [Yard.closeParen, closeParen, toYard, callMarker, List.nil_append,
    base_framesOf, applyToParen_levels]
  cases Operator.foldAll ops parts with
  | none => rfl
  | some parts =>
      cases outer with
      | nil => rfl
      | cons first rest =>
          obtain ⟨o, level⟩ := first
          simp only [framesOf, outerWaiting, outerOutput, List.length_append,
            Nat.add_sub_cancel_right, bind, Except.bind, close]
          cases o with
          | group opened =>
              simp only [Opening.isCall, Opening.caller, Bool.false_eq_true, ↓reduceIte,
                closeGroup, List.nil_append]
              split
              · rfl
              · split
                · rfl
                · simp only [Except.map, toYard, callMarker, List.nil_append, List.append_assoc]
          | call name place opened commas =>
              simp only [Opening.isCall, Opening.commas, Opening.caller, ↓reduceIte, closeCall,
                List.singleton_append, List.take_left, List.drop_left]
              by_cases empty : commas = 0 ∧ parts.length = 0
              · simp only [empty]
                rfl
              · simp only [empty, ↓reduceIte]
                split
                · rfl
                · split
                  · rfl
                  · simp only [Except.map, toYard, callMarker, List.nil_append, List.cons_append]

/-- One token: the yard of the levels takes it in as the levels do. A call's name is only
followed by its parenthesis. -/
theorem toYard_accept (limit : Option Int) (previous : Option Lexeme) (opensNext : Bool)
    (s : Levels) (t : Token) (settled : s.callee = none ∨ t.lexeme = .leftParen) :
    s.toYard.accept limit previous opensNext t =
      (s.accept limit previous opensNext t).map toYard := by
  obtain ⟨lexeme, position⟩ := t
  cases lexeme with
  | leftParen => exact toYard_openParen limit s position
  | number text =>
      exact congrArg Except.ok (toYard_putPart s _ (settled.resolve_right (by simp)))
  | identifier name =>
      exact congrArg Except.ok
        (toYard_putIdentifier s name position opensNext (settled.resolve_right (by simp)))
  | operator op => exact toYard_putOperator s _ position (settled.resolve_right (by simp))
  | comma => exact toYard_endArgument s position (settled.resolve_right (by simp))
  | rightParen => exact toYard_closeParen s position (settled.resolve_right (by simp))

theorem startsOpen_cons {t : Token} {rest : List Token} :
    startsOpen (t :: rest) = true ↔ t.lexeme = .leftParen := by
  rw [startsOpen, beq_iff_eq]

/-- Only an identifier in front of an open parenthesis leaves a call without its parenthesis. -/
theorem Step.callee {limit : Option Int} {previous : Option Lexeme} {opensNext : Bool}
    {s s' : Levels} {t : Token} (step : Step limit previous opensNext s t s')
    (settled : s.callee = none ∨ t.lexeme = .leftParen) :
    s'.callee = none ∨ opensNext = true := by
  cases step with
  | number text => exact .inl (settled.resolve_right (by simp))
  | uncalled => exact .inl (settled.resolve_right (by simp))
  | called _ _ _ opens => exact .inr opens
  | operator => exact .inl (settled.resolve_right (by simp))
  | opening => exact .inl rfl
  | comma => exact .inl rfl
  | closeGroup => exact .inl rfl
  | closeCall => exact .inl rfl

theorem toYard_acceptAll (limit : Option Int) (previous : Option Lexeme) (s : Levels)
    (tokens : List Token) (settled : s.callee = none ∨ startsOpen tokens = true) :
    Yard.acceptAll limit previous s.toYard tokens =
      (s.acceptAll limit previous tokens).map toYard := by
  induction tokens generalizing previous s with
  | nil => rfl
  | cons t rest ih =>
      have first := settled.imp_right startsOpen_cons.1
      simp only [Yard.acceptAll, acceptAll, toYard_accept limit previous _ s t first]
      cases accepted : s.accept limit previous (startsOpen rest) t with
      | error failure => rfl
      | ok s' => exact ih _ s' ((step_of_accept accepted).callee first)

theorem finish_toYard (s : Levels) (position : Nat) (settled : s.callee = none) :
    s.toYard.finish position = s.finish position := by
  obtain ⟨⟨ops, parts⟩, outer, callee⟩ := s
  cases settled
  simp only [Yard.finish, finish, toYard, callMarker, List.nil_append, base_framesOf,
    applyAll_levels]
  cases Operator.foldAll ops parts with
  | none => rfl
  | some parts =>
      cases outer with
      | nil =>
          cases parts with
          | nil => rfl
          | cons e more => cases more <;> rfl
      | cons first rest => rfl

/-- After the last token no call waits for its parenthesis. -/
theorem acceptAll_callee (limit : Option Int) (previous : Option Lexeme) (s s' : Levels)
    (tokens : List Token) (settled : s.callee = none ∨ startsOpen tokens = true)
    (accepted : s.acceptAll limit previous tokens = .ok s') : s'.callee = none := by
  induction tokens generalizing previous s with
  | nil =>
      cases accepted
      exact settled.resolve_right (by simp [startsOpen])
  | cons t rest ih =>
      have first := settled.imp_right startsOpen_cons.1
      obtain ⟨next, step, accepted⟩ := acceptAll_cons_ok accepted
      exact ih _ next (step.callee first) accepted

/-- Parsing on three stacks is parsing by levels. -/
theorem ofTokens_eq_parse (limit : Option Int) (tokens : List Token) :
    Expr.ofTokens limit tokens = parse limit tokens := by
  have run := toYard_acceptAll limit none {} tokens (.inl rfl)
  change Yard.acceptAll limit none {} tokens = _ at run
  simp only [Expr.ofTokens, run, parse]
  cases accepted : acceptAll limit none {} tokens with
  | error failure => rfl
  | ok s =>
      exact finish_toYard s _ (acceptAll_callee limit none {} s tokens (.inl rfl) accepted)

end Formula.Yard.Levels
