import Formula.Expr.Fold
import Formula.Expr.Reduction

/-!
Simplification. Parts are simplified before the node that holds them; then constants are folded,
and if there is no value, the first reduction rule that applies decides. An expression that no rule
touches is reported as unchanged.

The rules over powers build trees that are simplified in turn. The recursion ends because such a
tree has fewer products and quotients than the operation it replaces, and because simplifying never
adds any.
-/

set_option autoImplicit false

namespace Formula.Expr

/-- A simplified expression, whether it differs from the given one, and the records written. -/
structure Simplified where
  tree : Expr
  changed : Bool
  records : List Record

/-- Simplified arguments, whether one of them differs, and the records written. -/
structure SimplifiedAll where
  trees : List Expr
  changed : Bool
  records : List Record

/-- What to do with a node whose parts are simplified. -/
inductive Next where
  /-- Keep the node, with its simplified parts. -/
  | keep
  /-- Put an expression in its place. -/
  | settle (e : Expr)
  /-- Put an expression in its place that is to be simplified. -/
  | again (e : Expr)

/-- An operation is folded, or else reduced. -/
def nextBinary (strict : Bool) (op : BinaryOp) (left right : Expr) : Next :=
  match foldBinary strict op left right with
  | .value v => .settle (.const v)
  | _ =>
    match reduce op left right with
    | .settled e => .settle e
    | .again e => .again e
    | .none => .keep

def binaryRecords (strict : Bool) (level : Level) (op : BinaryOp) (left right : Expr) :
    List Record :=
  match foldBinary strict op left right with
  | .none => []
  | folding => folding.records level (render (.bin op left right))

/-- The negation of a constant is a constant, and two negations cancel. -/
def negated? : Expr → Option Expr
  | .const v => some (.const (-v))
  | .neg e => some e
  | _ => none

/-- The value of a call, if it is folded. -/
def foldedCall? (strict : Bool) (name : String) (arguments : List Expr) : Option Expr :=
  match foldCall strict name arguments with
  | .value v => some (.const v)
  | _ => none

def callRecords (strict : Bool) (level : Level) (name : String) (arguments : List Expr) :
    List Record :=
  match foldCall strict name arguments with
  | .none => []
  | folding => folding.records level (foldedCallText name arguments)

theorem nextBinary_settle_productCount {strict : Bool} {op : BinaryOp} {left right e : Expr}
    (h : nextBinary strict op left right = .settle e) :
    productCount e ≤ productCount (.bin op left right) := by
  unfold nextBinary at h
  split at h
  · cases h; exact Nat.zero_le _
  · split at h
    · next hr => cases h; exact reduce_settled_productCount hr
    · cases h
    · cases h

theorem nextBinary_again_productCount {strict : Bool} {op : BinaryOp} {left right e : Expr}
    (h : nextBinary strict op left right = .again e) :
    productCount e < productCount (.bin op left right) := by
  unfold nextBinary at h
  split at h
  · cases h
  · split at h
    · cases h
    · next hr => cases h; exact reduce_again_productCount hr
    · cases h

theorem negated?_productCount {e e' : Expr} (h : negated? e = some e') :
    productCount e' ≤ productCount e := by
  unfold negated? at h
  split at h
  · cases h; exact Nat.zero_le _
  · cases h; exact Nat.le_refl _
  · cases h

theorem productCount_bin_le (op : BinaryOp) {left right left' right' : Expr}
    (hl : productCount left' ≤ productCount left) (hr : productCount right' ≤ productCount right) :
    productCount (.bin op left' right') ≤ productCount (.bin op left right) := by
  simp only [productCount]
  omega

theorem foldedCall?_productCount {strict : Bool} {name : String} {arguments : List Expr}
    {e : Expr} (h : foldedCall? strict name arguments = some e) : productCount e = 0 := by
  unfold foldedCall? at h
  split at h
  · cases h; rfl
  · cases h

mutual

/-- Simplify an expression. The result comes with the proof that it has no more products and
quotients than the expression, which is what the recursion rests on. -/
def simplifyCounted (strict : Bool) (level : Level) (e : Expr) :
    { s : Simplified // productCount s.tree ≤ productCount e } :=
  match e with
  | .const v => ⟨⟨.const v, false, []⟩, Nat.le_refl _⟩
  | .var x => ⟨⟨.var x, false, []⟩, Nat.le_refl _⟩
  | .neg operand =>
    let s := simplifyCounted strict level operand
    match h : negated? s.val.tree with
    | some e' => ⟨⟨e', true, s.val.records⟩, Nat.le_trans (negated?_productCount h) s.property⟩
    | none => ⟨⟨.neg s.val.tree, s.val.changed, s.val.records⟩, s.property⟩
  | .call name arguments =>
    let s := simplifyAllCounted strict level arguments
    let records := s.val.records ++ callRecords strict level name s.val.trees
    match h : foldedCall? strict name s.val.trees with
    | some e' => ⟨⟨e', true, records⟩, (foldedCall?_productCount h).symm ▸ Nat.zero_le _⟩
    | none => ⟨⟨.call name s.val.trees, s.val.changed, records⟩, s.property⟩
  | .bin op left right =>
    let l := simplifyCounted strict level left
    let r := simplifyCounted strict level right
    let records := l.val.records ++ r.val.records ++
      binaryRecords strict level op l.val.tree r.val.tree
    have parts := productCount_bin_le op l.property r.property
    match h : nextBinary strict op l.val.tree r.val.tree with
    | .settle e' =>
      ⟨⟨e', true, records⟩, Nat.le_trans (nextBinary_settle_productCount h) parts⟩
    | .again e' =>
      have smaller : productCount e' < productCount (.bin op left right) :=
        Nat.lt_of_lt_of_le (nextBinary_again_productCount h) parts
      let s := simplifyCounted strict level e'
      ⟨⟨s.val.tree, true, records ++ s.val.records⟩,
        Nat.le_trans s.property (Nat.le_of_lt smaller)⟩
    | .keep =>
      ⟨⟨.bin op l.val.tree r.val.tree, l.val.changed || r.val.changed, records⟩, parts⟩
termination_by (productCount e, 2 * size e)
decreasing_by
  · exact Prod.Lex.right _ (by simp only [size]; omega)
  · exact Prod.Lex.right _ (by simp only [size]; omega)
  · refine Prod.lex_def.2 ?_
    simp only [productCount, size]
    omega
  · refine Prod.lex_def.2 ?_
    simp only [productCount, size]
    omega
  · exact Prod.Lex.left _ _ smaller

def simplifyAllCounted (strict : Bool) (level : Level) (es : List Expr) :
    { s : SimplifiedAll // totalProducts s.trees ≤ totalProducts es } :=
  match es with
  | [] => ⟨⟨[], false, []⟩, Nat.le_refl _⟩
  | e :: rest =>
    let s := simplifyCounted strict level e
    let more := simplifyAllCounted strict level rest
    ⟨⟨s.val.tree :: more.val.trees, s.val.changed || more.val.changed,
        s.val.records ++ more.val.records⟩,
      Nat.add_le_add s.property more.property⟩
termination_by (totalProducts es, 2 * totalSize es + 1)
decreasing_by
  · refine Prod.lex_def.2 ?_
    simp only [totalProducts, totalSize]
    omega
  · refine Prod.lex_def.2 ?_
    have := size_pos e
    simp only [totalProducts, totalSize]
    omega

end

/-- Simplify an expression in plain or in strict arithmetic, logging at a level. -/
def simplify (strict : Bool) (level : Level) (e : Expr) : Simplified :=
  (simplifyCounted strict level e).val

def simplifyAll (strict : Bool) (level : Level) (es : List Expr) : SimplifiedAll :=
  (simplifyAllCounted strict level es).val

/-- Simplifying never adds products or quotients. -/
theorem simplify_productCount (strict : Bool) (level : Level) (e : Expr) :
    productCount (simplify strict level e).tree ≤ productCount e :=
  (simplifyCounted strict level e).property

section Equations

variable (strict : Bool) (level : Level)

theorem simplify_const (v : Float) :
    simplify strict level (.const v) = ⟨.const v, false, []⟩ := by
  simp [simplify, simplifyCounted]

theorem simplify_var (x : String) : simplify strict level (.var x) = ⟨.var x, false, []⟩ := by
  simp [simplify, simplifyCounted]

theorem simplify_neg (e : Expr) :
    simplify strict level (.neg e) =
      let s := simplify strict level e
      match negated? s.tree with
      | some e' => ⟨e', true, s.records⟩
      | none => ⟨.neg s.tree, s.changed, s.records⟩ := by
  simp only [simplify]
  rw [simplifyCounted]
  split <;> rename_i h <;> simp only [h]

theorem simplify_call (name : String) (arguments : List Expr) :
    simplify strict level (.call name arguments) =
      let s := simplifyAll strict level arguments
      let records := s.records ++ callRecords strict level name s.trees
      match foldedCall? strict name s.trees with
      | some e => ⟨e, true, records⟩
      | none => ⟨.call name s.trees, s.changed, records⟩ := by
  simp only [simplify, simplifyAll]
  rw [simplifyCounted]
  split <;> rename_i h <;> simp only [h]

theorem simplify_bin (op : BinaryOp) (left right : Expr) :
    simplify strict level (.bin op left right) =
      let l := simplify strict level left
      let r := simplify strict level right
      let records := l.records ++ r.records ++ binaryRecords strict level op l.tree r.tree
      match nextBinary strict op l.tree r.tree with
      | .settle e => ⟨e, true, records⟩
      | .again e =>
        let s := simplify strict level e
        ⟨s.tree, true, records ++ s.records⟩
      | .keep => ⟨.bin op l.tree r.tree, l.changed || r.changed, records⟩ := by
  simp only [simplify]
  rw [simplifyCounted]
  split <;> rename_i h <;> simp only [h]

theorem simplifyAll_nil : simplifyAll strict level [] = ⟨[], false, []⟩ := by
  simp [simplifyAll, simplifyAllCounted]

theorem simplifyAll_cons (e : Expr) (rest : List Expr) :
    simplifyAll strict level (e :: rest) =
      let s := simplify strict level e
      let more := simplifyAll strict level rest
      ⟨s.tree :: more.trees, s.changed || more.changed, s.records ++ more.records⟩ := by
  simp [simplify, simplifyAll, simplifyAllCounted]

end Equations

end Formula.Expr
