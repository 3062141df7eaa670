import Formula.Proofs.Simplify.Folding

/-!
The size of simplified expressions. Some rules over powers of a variable first build an expression
with more nodes than they replace: `x * (c / x)` becomes `c * x ^ (1 - 1)`. What they add is an
operation on two constants, which strict arithmetic does not refuse. So an operation that is going to
be folded is counted as the constant it is folded to. Counted this way no rule adds nodes, and in a
simplified expression no such operation is left, so that all nodes are counted there.
-/

set_option autoImplicit false

namespace Formula.Expr

/-! ### The measure -/

/-- An operation on two constants that has a value. -/
def folds (strict : Bool) (op : BinaryOp) (left right : Expr) : Bool :=
  match foldBinary strict op left right with
  | .value _ => true
  | .none | .refused _ | .outsideDomain => false

mutual

/-- The number of nodes, an operation that is folded counted as one. -/
def foldedSize (strict : Bool) : Expr → Nat
  | .const _ | .var _ => 1
  | .bin op left right =>
    if folds strict op left right then 1 else 1 + foldedSize strict left + foldedSize strict right
  | .neg operand => 1 + foldedSize strict operand
  | .call _ arguments => 1 + totalFoldedSize strict arguments

def totalFoldedSize (strict : Bool) : List Expr → Nat
  | [] => 0
  | e :: rest => foldedSize strict e + totalFoldedSize strict rest

end

attribute [simp] foldedSize totalFoldedSize

section

variable {strict : Bool} {op : BinaryOp} {left left' right right' e s : Expr}

theorem constants_of_folds (folded : folds strict op left right = true) :
    ∃ a b, left = .const a ∧ right = .const b := by
  unfold folds at folded
  split at folded
  · next value found =>
      obtain ⟨a, b, first, second, -⟩ := foldBinary_eq_value found
      exact ⟨a, b, first, second⟩
  · cases folded
  · cases folded
  · cases folded

theorem foldedSize_pos (strict : Bool) (e : Expr) : 0 < foldedSize strict e := by
  cases e <;> simp only [foldedSize] <;> (try split) <;> omega

theorem foldedSize_bin_le (strict : Bool) (op : BinaryOp) (left right : Expr) :
    foldedSize strict (.bin op left right) ≤
      1 + foldedSize strict left + foldedSize strict right := by
  rw [foldedSize]
  split <;> omega

/-- An operation with an operand that is no constant counts as itself and its operands. -/
theorem foldedSize_bin_of_other (op : BinaryOp) (left right : Expr)
    (other : left.constant? = none ∨ right.constant? = none) :
    foldedSize strict (.bin op left right) =
      1 + foldedSize strict left + foldedSize strict right := by
  rw [foldedSize]
  split
  · next folded =>
      obtain ⟨a, b, rfl, rfl⟩ := constants_of_folds folded
      simp only [constant?, reduceCtorEq, or_self] at other
  · rfl

/-- No operand counts more than the operation: one that is folded has constants for operands. -/
theorem foldedSize_operands_le (strict : Bool) (op : BinaryOp) (left right : Expr) :
    foldedSize strict left ≤ foldedSize strict (.bin op left right) ∧
      foldedSize strict right ≤ foldedSize strict (.bin op left right) := by
  rw [foldedSize]
  split
  · next folded =>
      obtain ⟨a, b, rfl, rfl⟩ := constants_of_folds folded
      exact ⟨Nat.le_refl _, Nat.le_refl _⟩
  · omega

theorem totalFoldedSize_le_totalSize {es : List Expr}
    (each : ∀ a ∈ es, foldedSize strict a ≤ a.size) : totalFoldedSize strict es ≤ totalSize es := by
  induction es with
  | nil => exact Nat.le_refl _
  | cons a rest ih =>
      have first := each a List.mem_cons_self
      have others := ih fun b inside => each b (List.mem_cons_of_mem a inside)
      simp only [totalFoldedSize, totalSize]
      omega

theorem totalFoldedSize_eq_totalSize {es : List Expr}
    (each : ∀ a ∈ es, foldedSize strict a = a.size) : totalFoldedSize strict es = totalSize es := by
  induction es with
  | nil => rfl
  | cons a rest ih =>
      rw [totalFoldedSize, totalSize, each a List.mem_cons_self,
        ih fun b inside => each b (List.mem_cons_of_mem a inside)]

theorem foldedSize_le_size (strict : Bool) (e : Expr) : foldedSize strict e ≤ e.size := by
  induction e using Expr.induction with
  | const value => exact Nat.le_refl _
  | var name => exact Nat.le_refl _
  | neg a ih =>
      simp only [foldedSize, size]
      omega
  | call name arguments ih =>
      have total := totalFoldedSize_le_totalSize ih
      simp only [foldedSize, size]
      omega
  | bin op left right first second =>
      have counted := foldedSize_bin_le strict op left right
      simp only [size]
      omega

theorem folds_of_kept (kept : nextBinary strict op left right = .keep) :
    folds strict op left right = false := by
  unfold nextBinary at kept
  unfold folds
  cases folded : foldBinary strict op left right with
  | value v =>
      rw [folded] at kept
      cases kept
  | none | refused _ | outsideDomain => rfl

theorem foldedSize_of_stands (e : Expr) (stands : e.Everywhere (Stands strict)) :
    foldedSize strict e = e.size := by
  induction e using Expr.induction with
  | const value => rfl
  | var name => rfl
  | neg a ih => rw [foldedSize, size, ih stands.operand]
  | call name arguments ih =>
      rw [foldedSize, size,
        totalFoldedSize_eq_totalSize fun a inside => ih a inside (stands.argument inside)]
  | bin op left right first second =>
      rw [foldedSize, folds_of_kept stands.root, size, first stands.left, second stands.right]
      rfl

/-! ### Steps -/

theorem Settles.foldedSize_le (settles : Settles op left right e) :
    foldedSize strict e ≤ foldedSize strict (.bin op left right) := by
  obtain ⟨first, second⟩ := foldedSize_operands_le strict op left right
  cases settles with
  | zeroMul | mulZero | zeroDiv | powZero | onePow | zeroPow => exact foldedSize_pos strict _
  | addZero | subZero | mulOne | divOne | powOne => exact first
  | zeroAdd | oneMul => exact second
  | mulDiv _ x => exact Nat.le_trans (foldedSize_operands_le strict .mul e (.var x)).1 first
  | mulDivLeft x => exact Nat.le_trans (foldedSize_operands_le strict .mul (.var x) e).2 first

/-- A power of a variable has two nodes besides its exponent, or it is the variable itself. -/
theorem PowerOf.foldedSize_eq (strict : Bool) {x : String} {f a : Expr} (power : PowerOf x f a) :
    foldedSize strict f = 1 ∧ a = .one ∨ foldedSize strict f = 2 + foldedSize strict a := by
  cases power with
  | itself => exact .inl ⟨rfl, rfl⟩
  | power => exact .inr (foldedSize_bin_of_other .pow (.var x) a (.inl rfl))

theorem PowerOf.constant? {x : String} {f a : Expr} (power : PowerOf x f a) :
    Expr.constant? f = none := by
  cases power <;> rfl

/-- Operations on the exponents of two variables are folded. -/
theorem foldedSize_ones (strict : Bool) {op : BinaryOp} (additive : op = .add ∨ op = .sub) :
    foldedSize strict (.bin op .one .one) = 1 := by
  rcases additive with rfl | rfl <;> cases strict <;> rfl

/-- A power with a joined exponent counts at most as the two powers and an operation on them. -/
theorem PowerOf.foldedSize_join (strict : Bool) {x : String} {f g a b : Expr}
    (first : PowerOf x f a) (second : PowerOf x g b) (additive : op = .add ∨ op = .sub) :
    foldedSize strict (.bin .pow (.var x) (.bin op a b)) ≤
      1 + foldedSize strict f + foldedSize strict g := by
  have raised : foldedSize strict (.bin .pow (.var x) (.bin op a b)) =
      2 + foldedSize strict (.bin op a b) := foldedSize_bin_of_other .pow (.var x) _ (.inl rfl)
  have joined := foldedSize_bin_le strict op a b
  have one : foldedSize strict .one = 1 := rfl
  rcases first.foldedSize_eq strict with ⟨single, rfl⟩ | power
  · rcases second.foldedSize_eq strict with ⟨single', rfl⟩ | power'
    · have ones := foldedSize_ones strict additive
      omega
    · omega
  · rcases second.foldedSize_eq strict with ⟨single', rfl⟩ | power' <;> omega

theorem foldedSize_overVariable (c : Expr) (x : String) :
    foldedSize strict (.bin .div c (.var x)) = 2 + foldedSize strict c := by
  have counted : foldedSize strict (.bin .div c (.var x)) = 1 + foldedSize strict c + 1 :=
    foldedSize_bin_of_other .div c (.var x) (.inr rfl)
  omega

theorem Regroups.foldedSize_le (regroups : Regroups op left right e) :
    foldedSize strict e ≤ foldedSize strict (.bin op left right) := by
  cases regroups with
  | @timesQuotient x _ a c power =>
      have raised := power.foldedSize_join strict .itself (.inr rfl)
      have product := foldedSize_bin_le strict .mul c (.bin .pow (.var x) (.bin .sub a .one))
      rw [foldedSize_bin_of_other .mul left _ (.inr rfl), foldedSize_overVariable]
      have single : foldedSize strict (.var x) = 1 := rfl
      omega
  | @quotientTimes x _ a c power =>
      have raised := power.foldedSize_join strict .itself (.inr rfl)
      have product := foldedSize_bin_le strict .mul c (.bin .pow (.var x) (.bin .sub a .one))
      rw [foldedSize_bin_of_other .mul _ right (.inl rfl), foldedSize_overVariable]
      have single : foldedSize strict (.var x) = 1 := rfl
      omega
  | timesReciprocal x value c one =>
      rw [foldedSize_bin_of_other .mul _ _ (.inr rfl), foldedSize_overVariable, foldedSize_overVariable]
      omega
  | reciprocalTimes x value c one =>
      rw [foldedSize_bin_of_other .mul _ _ (.inl rfl), foldedSize_overVariable, foldedSize_overVariable]
      omega
  | product first second =>
      rw [foldedSize_bin_of_other .mul _ right (.inl first.constant?)]
      exact first.foldedSize_join strict second (.inl rfl)
  | quotient first second =>
      rw [foldedSize_bin_of_other .div _ right (.inl first.constant?)]
      exact first.foldedSize_join strict second (.inr rfl)

/-! ### Runs -/

/-- Simplifying the operands does not make an operation count more. Constants are simplified
already, so that an operation that is folded still is. -/
theorem foldedSize_operands_of_rewrites (first : Rewrites strict left left')
    (second : Rewrites strict right right')
    (lessLeft : foldedSize strict left' ≤ foldedSize strict left)
    (lessRight : foldedSize strict right' ≤ foldedSize strict right) :
    foldedSize strict (.bin op left' right') ≤ foldedSize strict (.bin op left right) := by
  cases folded : folds strict op left right with
  | true =>
      obtain ⟨a, b, rfl, rfl⟩ := constants_of_folds folded
      cases first
      cases second
      exact Nat.le_refl _
  | false =>
      have counted := foldedSize_bin_le strict op left' right'
      have whole : foldedSize strict (.bin op left right) =
          1 + foldedSize strict left + foldedSize strict right := by
        rw [foldedSize, folded]
        rfl
      omega

theorem totalFoldedSize_le (parts : List (Expr × Expr))
    (each : ∀ p ∈ parts, foldedSize strict p.2 ≤ foldedSize strict p.1) :
    totalFoldedSize strict (parts.map Prod.snd) ≤ totalFoldedSize strict (parts.map Prod.fst) := by
  induction parts with
  | nil => exact Nat.le_refl _
  | cons p rest ih =>
      have first := each p List.mem_cons_self
      have others := ih fun q inside => each q (List.mem_cons_of_mem p inside)
      simp only [List.map_cons, totalFoldedSize]
      omega

theorem foldedSize_le_of_rewrites (rewrites : Rewrites strict e s) :
    foldedSize strict s ≤ foldedSize strict e := by
  induction rewrites with
  | const value => exact Nat.le_refl _
  | var name => exact Nat.le_refl _
  | negKept _ _ ih =>
      simp only [foldedSize]
      omega
  | negGone _ gone ih =>
      rcases negated?_cases gone with ⟨value, rfl, rfl⟩ | rfl
      · exact foldedSize_pos strict _
      · simp only [foldedSize] at ih ⊢
        omega
  | callKept name parts _ _ ih =>
      have each := totalFoldedSize_le parts ih
      simp only [foldedSize]
      omega
  | callFolded name parts _ folded _ =>
      obtain ⟨value, rfl⟩ := foldedCall?_cases folded
      exact foldedSize_pos strict _
  | binKept left right _ first second => exact foldedSize_operands_of_rewrites left right first second
  | binSettled left right settled first second =>
      refine Nat.le_trans ?_ (foldedSize_operands_of_rewrites left right first second)
      rcases settles_of_nextBinary settled with ⟨value, -, rfl⟩ | settles
      · exact foldedSize_pos strict _
      · exact settles.foldedSize_le
  | binAgain left right again _ first second ih =>
      -- What a rule built is simplified again: the induction bounds that, and the rule what it built.
      refine Nat.le_trans ih ?_
      refine Nat.le_trans ?_ (foldedSize_operands_of_rewrites left right first second)
      exact (nextBinary_again_cases again).foldedSize_le

end

/-- Simplifying never makes an expression larger. -/
theorem size_simplify_le (strict : Bool) (level : Level) (e : Expr) :
    (simplify strict level e).tree.size ≤ e.size :=
  have run := rewrites_simplify strict level e
  calc (simplify strict level e).tree.size
      = foldedSize strict (simplify strict level e).tree :=
        (foldedSize_of_stands _ (stands_of_rewrites run)).symm
    _ ≤ foldedSize strict e := foldedSize_le_of_rewrites run
    _ ≤ e.size := foldedSize_le_size strict e

end Formula.Expr
