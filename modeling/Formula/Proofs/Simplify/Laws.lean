import Formula.Proofs.Simplify.Folding

/-!
Simplification as a chain of small steps. A link of the chain replaces one part of an expression: an
operation, a negation or a call of a built-in function on constants by its value, or the left side of
a law by the right side. What the simplifier makes of an expression is reached by such a chain.
-/

set_option autoImplicit false

namespace Formula.Expr

/-! ### Links -/

/-- The laws, applied from left to right. -/
inductive Law : Expr → Expr → Prop
  | settles {op : BinaryOp} {left right e : Expr} (settles : Settles op left right e) :
      Law (.bin op left right) e
  | regroups {op : BinaryOp} {left right e : Expr} (regroups : Regroups op left right e) :
      Law (.bin op left right) e
  | negNeg (a : Expr) : Law (.neg (.neg a)) a

/-- A node with constants for all its parts: an operation, a negation or a call of a built-in
function. -/
inductive IsFoldable : Expr → Prop
  | operation (op : BinaryOp) (a b : Float) : IsFoldable (.bin op (.const a) (.const b))
  | negation (a : Float) : IsFoldable (.neg (.const a))
  | call (f : Builtin) (values : List Float) : IsFoldable (.call f.name (values.map .const))

/-- An expression and the constant that takes its place. -/
structure Fold where
  expression : Expr
  value : Float

/-- One part of an expression is replaced, by a law or by a fold, which is kept on record. -/
inductive Link (strict : Bool) : Expr → List Fold → Expr → Prop
  | law {e e' : Expr} (law : Law e e') : Link strict e [] e'
  | fold {e : Expr} {v : Float} (foldable : IsFoldable e)
      (evaluated : evaluate strict .empty e = .ok v) : Link strict e [⟨e, v⟩] (.const v)
  | left (op : BinaryOp) {a a' : Expr} {folds : List Fold} (b : Expr) (inner : Link strict a folds a') :
      Link strict (.bin op a b) folds (.bin op a' b)
  | right (op : BinaryOp) (a : Expr) {b b' : Expr} {folds : List Fold}
      (inner : Link strict b folds b') : Link strict (.bin op a b) folds (.bin op a b')
  | operand {a a' : Expr} {folds : List Fold} (inner : Link strict a folds a') :
      Link strict (.neg a) folds (.neg a')
  | argument (name : String) (before : List Expr) {a a' : Expr} {folds : List Fold}
      (after : List Expr) (inner : Link strict a folds a') :
      Link strict (.call name (before ++ a :: after)) folds (.call name (before ++ a' :: after))

/-- A chain of links, with the folds made on the way. -/
inductive Chain (strict : Bool) : Expr → List Fold → Expr → Prop
  | nil (e : Expr) : Chain strict e [] e
  | cons {e e' s : Expr} {folds more : List Fold} (first : Link strict e folds e')
      (rest : Chain strict e' more s) : Chain strict e (folds ++ more) s

section

variable {strict : Bool} {e e' s : Expr}

theorem Chain.append {folds more : List Fold} (first : Chain strict e folds e')
    (second : Chain strict e' more s) : Chain strict e (folds ++ more) s := by
  induction first with
  | nil => exact second
  | cons link _ ih =>
      rw [List.append_assoc]
      exact .cons link (ih second)

/-- A chain between parts is a chain between the expressions around them. -/
theorem Chain.around {folds : List Fold} (surround : Expr → Expr)
    (inside : ∀ {a a' folds}, Link strict a folds a' → Link strict (surround a) folds (surround a'))
    (inner : Chain strict e folds e') : Chain strict (surround e) folds (surround e') := by
  induction inner with
  | nil => exact .nil _
  | cons link _ ih => exact .cons (inside link) ih

/-! ### Chains -/

/-- There is a chain from one expression to another. -/
def Reaches (strict : Bool) (e s : Expr) : Prop := ∃ folds, Chain strict e folds s

theorem Reaches.refl (e : Expr) : Reaches strict e e := ⟨[], .nil e⟩

theorem Reaches.trans (first : Reaches strict e e') (second : Reaches strict e' s) :
    Reaches strict e s :=
  let ⟨_, chain⟩ := first
  let ⟨_, more⟩ := second
  ⟨_, chain.append more⟩

theorem Reaches.link {folds : List Fold} (link : Link strict e folds s) : Reaches strict e s :=
  ⟨_, .cons link (.nil s)⟩

theorem Reaches.around (surround : Expr → Expr)
    (inside : ∀ {a a' folds}, Link strict a folds a' → Link strict (surround a) folds (surround a'))
    (inner : Reaches strict e e') : Reaches strict (surround e) (surround e') :=
  let ⟨_, chain⟩ := inner
  ⟨_, chain.around surround inside⟩

theorem Reaches.operands {op : BinaryOp} {left left' right right' : Expr}
    (first : Reaches strict left left') (second : Reaches strict right right') :
    Reaches strict (.bin op left right) (.bin op left' right') :=
  (first.around (.bin op · right) (.left op right)).trans
    (second.around (.bin op left' ·) (.right op left'))

theorem Reaches.arguments (name : String) (parts : List (Expr × Expr))
    (each : ∀ p ∈ parts, Reaches strict p.1 p.2) (before : List Expr) :
    Reaches strict (.call name (before ++ parts.map Prod.fst))
      (.call name (before ++ parts.map Prod.snd)) := by
  induction parts generalizing before with
  | nil => exact .refl _
  | cons p rest ih =>
      have first := (each p List.mem_cons_self).around
        (fun a => .call name (before ++ a :: rest.map Prod.fst)) (.argument name before _)
      have others := ih (fun q inside => each q (List.mem_cons_of_mem p inside)) (before ++ [p.2])
      rw [List.append_assoc, List.append_assoc] at others
      exact first.trans others

/-! ### The rules as laws -/

/-- An operation that is settled is folded, or a law is applied to it. -/
theorem reaches_of_settle {op : BinaryOp} {left right : Expr}
    (settled : nextBinary strict op left right = .settle e) :
    Reaches strict (.bin op left right) e := by
  rcases settles_of_nextBinary settled with ⟨v, folded, rfl⟩ | settles
  · obtain ⟨a, b, rfl, rfl, value⟩ := foldBinary_eq_value folded
    exact .link (.fold (.operation op a b) value)
  · exact .link (.law (.settles settles))

theorem reaches_of_negated? {a : Expr} (gone : negated? a = some e) : Reaches strict (.neg a) e := by
  rcases negated?_cases gone with ⟨value, rfl, rfl⟩ | rfl
  · exact .link (.fold (.negation value) rfl)
  · exact .link (.law (.negNeg e))

theorem reaches_of_foldedCall? {name : String} {arguments : List Expr}
    (folded : foldedCall? strict name arguments = some e) :
    Reaches strict (.call name arguments) e := by
  unfold foldedCall? at folded
  split at folded
  · next call =>
      cases folded
      obtain ⟨f, values, rfl, rfl, -, value⟩ := foldCall_eq_value call
      exact .link (.fold (.call f values) value)
  · cases folded

/-- What an expression is simplified to is reached by a chain. -/
theorem reaches_of_rewrites (rewrites : Rewrites strict e s) : Reaches strict e s := by
  induction rewrites with
  | const value => exact .refl _
  | var name => exact .refl _
  | negKept _ _ ih => exact ih.around .neg .operand
  | negGone _ gone ih => exact (ih.around .neg .operand).trans (reaches_of_negated? gone)
  | callKept name parts _ _ ih => exact .arguments name parts ih []
  | callFolded name parts _ folded ih =>
      exact (Reaches.arguments name parts ih []).trans (reaches_of_foldedCall? folded)
  | binKept _ _ _ first second => exact first.operands second
  | binSettled _ _ settled first second =>
      exact (first.operands second).trans (reaches_of_settle settled)
  | binAgain _ _ again _ first second ih =>
      have law := Law.regroups (nextBinary_again_cases again)
      exact (first.operands second).trans ((Reaches.link (.law law)).trans ih)

end

end Formula.Expr
