import Formula.Proofs.Simplify.Rewrites

/-!
Simplified expressions. Simplifying leaves alone whatever it made itself, and it reports an
expression as unchanged exactly if the result is the very expression that was given.
-/

set_option autoImplicit false

namespace Formula.Expr

section

variable {strict : Bool} {level : Level}

theorem changed_simplifyAll (es : List Expr) :
    (simplifyAll strict level es).changed = es.any fun e => (simplify strict level e).changed := by
  induction es with
  | nil => rw [simplifyAll_nil, List.any_nil]
  | cons e rest ih => rw [simplifyAll_cons, List.any_cons, ← ih]

theorem trees_eq_of_each (es : List Expr) (each : ∀ e ∈ es, (simplify strict level e).tree = e) :
    (simplifyAll strict level es).trees = es :=
  calc (simplifyAll strict level es).trees
      = es.map fun e => (simplify strict level e).tree := trees_simplifyAll strict level es
    _ = es.map id := List.map_congr_left each
    _ = es := List.map_id es

/-! ### Kept nodes -/

theorem simplify_neg_of_kept {a : Expr}
    (kept : negated? (simplify strict level a).tree = none) :
    simplify strict level (.neg a) = ⟨.neg (simplify strict level a).tree,
      (simplify strict level a).changed, (simplify strict level a).records⟩ := by
  simp only [simplify_neg, kept]

theorem simplify_call_of_kept {name : String} {arguments : List Expr}
    (kept : foldedCall? strict name (simplifyAll strict level arguments).trees = none) :
    (simplify strict level (.call name arguments)).tree =
        .call name (simplifyAll strict level arguments).trees ∧
      (simplify strict level (.call name arguments)).changed =
        (simplifyAll strict level arguments).changed := by
  simp only [simplify_call, kept, and_self]

theorem simplify_bin_of_kept {op : BinaryOp} {left right : Expr}
    (kept : nextBinary strict op (simplify strict level left).tree
      (simplify strict level right).tree = .keep) :
    (simplify strict level (.bin op left right)).tree =
        .bin op (simplify strict level left).tree (simplify strict level right).tree ∧
      (simplify strict level (.bin op left right)).changed =
        ((simplify strict level left).changed || (simplify strict level right).changed) := by
  simp only [simplify_bin, kept, and_self]

/-! ### Unchanged expressions -/

theorem tree_eq_of_unchanged (e : Expr) (unchanged : (simplify strict level e).changed = false) :
    (simplify strict level e).tree = e := by
  -- A node that a rule applies to is reported as changed, so every node is kept.
  induction e using Expr.induction with
  | const value => rw [simplify_const]
  | var name => rw [simplify_var]
  | neg a ih =>
      cases kept : negated? (simplify strict level a).tree with
      | some e => simp [simplify_neg, kept] at unchanged
      | none =>
          rw [simplify_neg_of_kept kept] at unchanged ⊢
          rw [ih unchanged]
  | call name arguments ih =>
      cases kept : foldedCall? strict name (simplifyAll strict level arguments).trees with
      | some e => simp [simplify_call, kept] at unchanged
      | none =>
          rw [(simplify_call_of_kept kept).2, changed_simplifyAll, List.any_eq_false] at unchanged
          rw [(simplify_call_of_kept kept).1, trees_eq_of_each]
          intro a inside
          exact ih a inside (Bool.eq_false_iff.2 (unchanged a inside))
  | bin op left right first second =>
      cases kept : nextBinary strict op (simplify strict level left).tree
          (simplify strict level right).tree with
      | settle e => simp [simplify_bin, kept] at unchanged
      | again e => simp [simplify_bin, kept] at unchanged
      | keep =>
          rw [(simplify_bin_of_kept kept).2, Bool.or_eq_false_iff] at unchanged
          rw [(simplify_bin_of_kept kept).1, first unchanged.1, second unchanged.2]

/-- An expression in which every node is kept is given back and reported as unchanged. -/
theorem simplify_of_stands (level : Level) (e : Expr)
    (stands : e.Everywhere (Stands strict)) :
    (simplify strict level e).tree = e ∧ (simplify strict level e).changed = false := by
  induction e using Expr.induction with
  | const value =>
      rw [simplify_const]
      exact ⟨rfl, rfl⟩
  | var name =>
      rw [simplify_var]
      exact ⟨rfl, rfl⟩
  | neg a ih =>
      obtain ⟨tree, unchanged⟩ := ih stands.operand
      have kept : negated? (simplify strict level a).tree = none := by
        rw [tree]
        exact stands.root
      rw [simplify_neg_of_kept kept]
      exact ⟨congrArg _ tree, unchanged⟩
  | call name arguments ih =>
      have trees : (simplifyAll strict level arguments).trees = arguments :=
        trees_eq_of_each arguments fun a inside => (ih a inside (stands.argument inside)).1
      have kept : foldedCall? strict name (simplifyAll strict level arguments).trees = none := by
        rw [trees]
        exact stands.root
      rw [(simplify_call_of_kept kept).1, (simplify_call_of_kept kept).2, changed_simplifyAll,
        List.any_eq_false]
      refine ⟨congrArg _ trees, fun a inside => ?_⟩
      exact Bool.eq_false_iff.1 (ih a inside (stands.argument inside)).2
  | bin op left right first second =>
      obtain ⟨tree, unchanged⟩ := first stands.left
      obtain ⟨tree', unchanged'⟩ := second stands.right
      have kept : nextBinary strict op (simplify strict level left).tree
          (simplify strict level right).tree = .keep := by
        rw [tree, tree']
        exact stands.root
      rw [(simplify_bin_of_kept kept).1, (simplify_bin_of_kept kept).2, tree, tree', unchanged,
        unchanged']
      exact ⟨rfl, rfl⟩

end

/-- Simplifying a simplified expression changes nothing, whatever is logged, and an expression is
reported as unchanged exactly if it is its own simplification. -/
theorem simplify_idempotent (strict : Bool) (level again : Level) (e : Expr) :
    (simplify strict again (simplify strict level e).tree).changed = false ∧
      (simplify strict again (simplify strict level e).tree).tree = (simplify strict level e).tree ∧
      ((simplify strict level e).changed = false ↔ (simplify strict level e).tree = e) := by
  have stands := stands_of_rewrites (rewrites_simplify strict level e)
  obtain ⟨tree, unchanged⟩ := simplify_of_stands again _ stands
  refine ⟨unchanged, tree, tree_eq_of_unchanged e, fun same => ?_⟩
  exact (simplify_of_stands level e (same ▸ stands)).2

end Formula.Expr
