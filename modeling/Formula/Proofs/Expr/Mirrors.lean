import Formula.Proofs.Expr.Equality
import Formula.Proofs.Expr.Evaluation

/-!
Equal expressions without negative zeros mirror each other: they differ in nothing but the order of
the operands of sums and products. Mirrored expressions have the same size, depth and names, and in
every context the same value, if they have one. Which part fails first can differ, but not that one
does.
-/

set_option autoImplicit false

namespace Formula

open Float.Model (UnpackedFloat Format)
open Float.Model.UnpackedFloat

/-! ### Operators whose operands may change places -/

theorem add_swap (a b : Float) : a + b = b + a := by
  change Float.ofModel (.pack (UnpackedFloat.add Format.binary64 a.toModel.unpack
      b.toModel.unpack)) =
    Float.ofModel (.pack (UnpackedFloat.add Format.binary64 b.toModel.unpack a.toModel.unpack))
  congr 2
  cases a.toModel.unpack with
  | notANumber => cases b.toModel.unpack <;> rfl
  | infinity s =>
      cases b.toModel.unpack with
      | infinity t => cases s <;> cases t <;> rfl
      | _ => rfl
  | zero s =>
      cases b.toModel.unpack with
      | zero t => cases s <;> cases t <;> rfl
      | _ => rfl
  | finite s m e positive =>
      cases b.toModel.unpack with
      | finite t n f positive' => simp only [UnpackedFloat.add, Int.min_comm e f, Int.add_comm]
      | _ => rfl

theorem mul_swap (a b : Float) : a * b = b * a := by
  change Float.ofModel (.pack (UnpackedFloat.mul Format.binary64 a.toModel.unpack
      b.toModel.unpack)) =
    Float.ofModel (.pack (UnpackedFloat.mul Format.binary64 b.toModel.unpack a.toModel.unpack))
  congr 2
  have signs : ∀ s t : Sign, s * t = t * s := by
    intro s t
    cases s <;> cases t <;> rfl
  cases a.toModel.unpack with
  | notANumber => cases b.toModel.unpack <;> rfl
  | infinity s => cases b.toModel.unpack <;> simp only [UnpackedFloat.mul, signs s]
  | zero s => cases b.toModel.unpack <;> simp only [UnpackedFloat.mul, signs s]
  | finite s m e positive =>
      cases b.toModel.unpack <;>
        simp only [UnpackedFloat.mul, signs s, Nat.mul_comm m, Int.add_comm e]

namespace BinaryOp

variable {op : BinaryOp}

theorem commutes_cases (commutes : op.commutes = true) : op = .add ∨ op = .mul := by
  cases op with
  | add => exact .inl rfl
  | mul => exact .inr rfl
  | _ => cases commutes

theorem plain_swap (commutes : op.commutes = true) (a b : Float) : op.plain a b = op.plain b a := by
  rcases commutes_cases commutes with rfl | rfl
  · exact add_swap a b
  · exact mul_swap a b

theorem value_of_commutes (commutes : op.commutes = true) (strict : Bool) (a b : Float) :
    op.value strict a b = checkOverflow strict (.operator op) [a, b] (op.plain a b) := by
  have divides : op.dividesByZero a b = false := by
    rcases commutes_cases commutes with rfl | rfl
    · rfl
    · rfl
  rw [value, divides, Bool.and_false, if_neg Bool.false_ne_true]

/-- Strict arithmetic refuses the same sums and products in either order. -/
theorem value_swap (commutes : op.commutes = true) (strict : Bool) (a b : Float) :
    op.value strict a b = op.value strict b a := by
  have finite : [a, b].all Float.isFinite = [b, a].all Float.isFinite := by
    simp only [List.all_cons, List.all_nil, Bool.and_true]
    exact Bool.and_comm _ _
  rw [value_of_commutes commutes, value_of_commutes commutes, plain_swap commutes a b,
    checkOverflow, checkOverflow, finite]

end BinaryOp

namespace Expr

/-! ### Mirrored expressions -/

/-- Two expressions differ at most in the order of the operands of sums and products. -/
abbrev Mirrors : Expr → Expr → Prop := Matches (· = ·)

namespace Mirrors

theorem refl (e : Expr) : Mirrors e e := matches_refl (fun _ => rfl) e

theorem symm {e f : Expr} (mirrors : Mirrors e f) : Mirrors f e := Matches.symm Eq.symm mirrors

theorem trans {e f g : Expr} (mirrors : Mirrors e f) (more : Mirrors f g) : Mirrors e g :=
  Matches.trans (r := (· = ·)) Eq.trans mirrors more

end Mirrors

/-- A node that is not the constant negative zero. -/
def IsNotNegativeZero : Expr → Prop
  | .const value => value ≠ -0.0
  | .var _ | .bin .. | .neg _ | .call .. => True

/-- Constants that are equal can only be different if one of them is a negative zero. -/
theorem eq_of_sameConstant {a b : Float} (equal : sameConstant a b = true) (other : a ≠ -0.0)
    (other' : b ≠ -0.0) : a = b := by
  rw [sameConstant, Bool.or_eq_true, Bool.and_eq_true] at equal
  rcases equal with equal | ⟨first, second⟩
  · obtain ⟨-, -, same | ⟨-, zero⟩ | ⟨zero, -⟩⟩ := Float.beq_iff_ne_nan_and_eq.1 equal
    · exact same
    · exact absurd zero other'
    · exact absurd zero other
  · rw [Float.isNaN_eq_decide_eq_nan, decide_eq_true_eq] at first second
    rw [first, second]

theorem mirrors_of_same {e f : Expr} (equal : same e f = true)
    (positive : e.Everywhere IsNotNegativeZero) (positive' : f.Everywhere IsNotNegativeZero) :
    Mirrors e f := by
  have matched := (same_iff_matches e f).1 equal
  clear equal
  induction matched using Matches.induction with
  | const related => exact .const (eq_of_sameConstant related positive.root positive'.root)
  | var x => exact .var x
  | bin op _ _ straight straight' =>
      exact .bin op (straight positive.left positive'.left)
        (straight' positive.right positive'.right)
  | swapped commutes _ _ crossed crossed' =>
      exact .swapped commutes (crossed positive.left positive'.right)
        (crossed' positive.right positive'.left)
  | neg _ operand => exact .neg (operand positive.operand positive'.operand)
  | call name _ each =>
      apply Matches.call name
      apply forall₂_of_members each
      intro a inside b inside' both
      exact both.2 (positive.argument inside) (positive'.argument inside')

theorem same_of_mirrors {e f : Expr} (mirrors : Mirrors e f) : same e f = true := by
  apply (same_iff_matches e f).2
  apply mirrors.mono
  rintro a b rfl
  exact (sameConstant_iff a a).2 rfl

/-! ### Sizes, depths and names -/

section

variable {r : Float → Float → Prop} {e f : Expr} {as bs : List Expr}

theorem totalSize_of_each (each : List.Forall₂ (fun a b => a.size = b.size) as bs) :
    totalSize as = totalSize bs := by
  induction each with
  | nil => rfl
  | cons head _ ih => rw [totalSize, totalSize, head, ih]

theorem Matches.size_eq (matched : Matches r e f) : e.size = f.size := by
  induction matched using Matches.induction with
  | const related => rfl
  | var x => rfl
  | bin op _ _ straight straight' => rw [size, size, straight, straight']
  | swapped _ _ _ crossed crossed' => rw [size, size, crossed, crossed', Nat.add_right_comm]
  | neg _ operand => rw [size, size, operand]
  | call name _ each =>
      rw [size, size, totalSize_of_each]
      exact each.imp fun a b both => both.2

theorem heightAll_of_each (each : List.Forall₂ (fun a b => a.height = b.height) as bs) :
    heightAll as = heightAll bs := by
  induction each with
  | nil => rfl
  | cons head _ ih => rw [heightAll, heightAll, head, ih]

theorem Matches.height_eq (matched : Matches r e f) : e.height = f.height := by
  induction matched using Matches.induction with
  | const related => rfl
  | var x => rfl
  | bin op _ _ straight straight' => rw [height, height, straight, straight']
  | swapped _ _ _ crossed crossed' => rw [height, height, crossed, crossed', Nat.max_comm]
  | neg _ operand => rw [height, height, operand]
  | call name _ each =>
      rw [height, height, heightAll_of_each]
      exact each.imp fun a b both => both.2

variable {α : Type} {label : Expr → α}

theorem preorderAll_labels_of_each
    (each : List.Forall₂ (fun a b => ((preorder a).map label).Perm ((preorder b).map label)) as bs) :
    ((preorderAll as).map label).Perm ((preorderAll bs).map label) := by
  induction each with
  | nil => exact .refl _
  | cons head _ ih =>
      rw [preorderAll, preorderAll, List.map_append, List.map_append]
      exact head.append ih

/-- Matched expressions have the same nodes up to what matching preserves. -/
theorem Matches.labels_perm (alike : ∀ {e f}, Matches r e f → label e = label f)
    (matched : Matches r e f) : ((preorder e).map label).Perm ((preorder f).map label) := by
  induction matched using Matches.induction with
  | const related => rw [preorder, preorder, List.map_singleton, alike (.const related)]; rfl
  | var x => exact .refl _
  | bin op first second straight straight' =>
      rw [preorder, preorder, List.map_cons, List.map_cons, alike (.bin op first second),
        List.map_append, List.map_append, List.perm_cons]
      exact straight.append straight'
  | swapped commutes first second crossed crossed' =>
      rw [preorder, preorder, List.map_cons, List.map_cons, alike (.swapped commutes first second),
        List.map_append, List.map_append, List.perm_cons]
      exact (crossed.append crossed').trans List.perm_append_comm
  | neg operand ih =>
      rw [preorder, preorder, List.map_cons, List.map_cons, alike (.neg operand), List.perm_cons]
      exact ih
  | call name arguments each =>
      rw [preorder, preorder, List.map_cons, List.map_cons, alike (.call name arguments),
        List.perm_cons]
      exact preorderAll_labels_of_each (each.imp fun a b both => both.2)

/-- The names that the nodes bear are the same, each as often. -/
theorem Matches.names_perm {name? : Expr → Option String}
    (alike : ∀ {e f}, Matches r e f → name? e = name? f) (matched : Matches r e f) :
    (e.breadthFirst.filterMap name?).Perm (f.breadthFirst.filterMap name?) := by
  have walk : ∀ g : Expr, (g.breadthFirst.filterMap name?).Perm
      (((preorder g).map name?).filterMap id) := by
    intro g
    rw [List.filterMap_map]
    exact (breadthFirst_perm g).filterMap name?
  exact ((walk e).trans ((matched.labels_perm alike).filterMap id)).trans (walk f).symm

theorem Matches.variableName?_eq (matched : Matches r e f) : e.variableName? = f.variableName? := by
  cases matched <;> rfl

theorem Matches.calledName?_eq (matched : Matches r e f) : e.calledName? = f.calledName? := by
  cases matched <;> rfl

end

end Expr

/-! ### Sorted names -/

namespace Text

theorem nodup_eraseDups (names : List String) : names.eraseDups.Nodup := by
  match names with
  | [] => exact List.nodup_nil
  | name :: rest =>
      rw [List.eraseDups_cons, List.nodup_cons]
      refine ⟨?_, nodup_eraseDups _⟩
      rw [List.mem_eraseDups, List.mem_filter]
      simp
termination_by names.length
decreasing_by exact Nat.lt_succ_of_le (List.length_filter_le _ rest)

theorem sortedNames_congr {first second : List String}
    (members : ∀ name, name ∈ first ↔ name ∈ second) : sortedNames first = sortedNames second := by
  have once : first.eraseDups.Perm second.eraseDups := by
    rw [List.perm_ext_iff_of_nodup (nodup_eraseDups first) (nodup_eraseDups second)]
    intro name
    rw [List.mem_eraseDups, List.mem_eraseDups, members]
  have total : ∀ a b : String, (decide (a ≤ b) || decide (b ≤ a)) = true := by
    intro a b
    simpa using String.le_total a b
  have transitive : ∀ a b c : String, decide (a ≤ b) = true → decide (b ≤ c) = true →
      decide (a ≤ c) = true := by
    intro a b c
    simpa using String.le_trans
  have sorted := List.pairwise_mergeSort transitive total
  apply List.Perm.eq_of_pairwise _ (sorted _) (sorted _)
  · exact ((List.mergeSort_perm _ _).trans once).trans (List.mergeSort_perm _ _).symm
  · intro a b _ _ below above
    exact String.le_antisymm (by simpa using below) (by simpa using above)

end Text

namespace Expr

section

variable {r : Float → Float → Prop} {e f : Expr}

theorem Matches.depth_eq (matched : Matches r e f) : e.depth = f.depth := by
  rw [depth_eq_height, depth_eq_height, matched.height_eq]

theorem Matches.functionNames_eq (matched : Matches r e f) : e.functionNames = f.functionNames :=
  Text.sortedNames_congr fun _ => (matched.names_perm Matches.calledName?_eq).mem_iff

theorem Matches.variableCounts_eq (matched : Matches r e f) :
    e.variableCounts = f.variableCounts := by
  have occurrences := matched.names_perm Matches.variableName?_eq
  rw [variableCounts, variableCounts, Text.sortedNames_congr fun _ => occurrences.mem_iff]
  apply List.map_congr_left
  intro name _
  rw [occurrences.count_eq]

end

/-! ### Values -/

theorem evaluateAll_of_each {strict : Bool} {c : Context} {as bs : List Expr} {values : List Float}
    (each : List.Forall₂ (fun a b => ∀ v, evaluate strict c a = .ok v → evaluate strict c b = .ok v)
      as bs) (evaluated : evaluateAll strict c as = .ok values) :
    evaluateAll strict c bs = .ok values := by
  induction each generalizing values with
  | nil => exact evaluated
  | cons head _ ih =>
      obtain ⟨x, first, xs, more, rfl⟩ := evaluateAll_cons_eq_ok.1 evaluated
      exact evaluateAll_cons_eq_ok.2 ⟨x, head x first, xs, ih more, rfl⟩

/-- A mirrored expression has every value of the expression. -/
theorem evaluate_of_mirrors {strict : Bool} {c : Context} {e f : Expr} (mirrors : Mirrors e f)
    (v : Float) (evaluated : evaluate strict c e = .ok v) : evaluate strict c f = .ok v := by
  induction mirrors using Matches.induction generalizing v with
  | const related =>
      rw [← related]
      exact evaluated
  | var x => exact evaluated
  | bin op _ _ straight straight' =>
      obtain ⟨a, left, b, right, value⟩ := evaluate_bin_eq_ok.1 evaluated
      exact evaluate_bin_eq_ok.2 ⟨a, straight a left, b, straight' b right, value⟩
  | swapped commutes _ _ crossed crossed' =>
      obtain ⟨a, left, b, right, value⟩ := evaluate_bin_eq_ok.1 evaluated
      rw [BinaryOp.value_swap commutes] at value
      exact evaluate_bin_eq_ok.2 ⟨b, crossed' b right, a, crossed a left, value⟩
  | neg _ operand =>
      obtain ⟨x, value, negated⟩ := evaluate_neg_eq_ok.1 evaluated
      exact evaluate_neg_eq_ok.2 ⟨x, operand x value, negated⟩
  | call name arguments each =>
      obtain ⟨d, found, fits, values, parts, applied⟩ := evaluate_call_eq_ok.1 evaluated
      rw [arguments.length_eq] at fits
      have parts' := evaluateAll_of_each (each.imp fun a b both => both.2) parts
      exact evaluate_call_eq_ok.2 ⟨d, found, fits, values, parts', applied⟩

/-- Mirrored expressions have a value both or neither. -/
theorem evaluate_error_of_mirrors {strict : Bool} {c : Context} {e f : Expr}
    (mirrors : Mirrors e f) (failed : ∃ failure, evaluate strict c e = .error failure) :
    ∃ failure, evaluate strict c f = .error failure := by
  obtain ⟨failure, failed⟩ := failed
  cases evaluated : evaluate strict c f with
  | error other => exact ⟨other, rfl⟩
  | ok v =>
      rw [evaluate_of_mirrors mirrors.symm v evaluated] at failed
      cases failed

/-- Equal expressions without negative zeros have the same size, the same depth, the same variables,
each as often, and call the same functions. In every context, in plain and in strict arithmetic, they
have the same value, if they have one, and otherwise both of them fail. -/
theorem same_meaning {e f : Expr} (equal : e.same f = true)
    (positive : e.Everywhere IsNotNegativeZero) (positive' : f.Everywhere IsNotNegativeZero) :
    e.size = f.size ∧ e.depth = f.depth ∧ e.variableCounts = f.variableCounts ∧
      e.functionNames = f.functionNames ∧
      ∀ (strict : Bool) (c : Context),
        (∀ v w, e.evaluate strict c = .ok v → f.evaluate strict c = .ok w →
          (v == w) = true ∨ v.isNaN = true ∧ w.isNaN = true) ∧
        ((∃ failure, e.evaluate strict c = .error failure) ↔
          ∃ failure, f.evaluate strict c = .error failure) := by
  have mirrors := mirrors_of_same equal positive positive'
  refine ⟨mirrors.size_eq, mirrors.depth_eq, mirrors.variableCounts_eq, mirrors.functionNames_eq,
    fun strict c => ⟨?_, ?_⟩⟩
  · intro v w evaluated evaluated'
    rw [evaluate_of_mirrors mirrors v evaluated, Except.ok.injEq] at evaluated'
    have same : sameConstant v w = true := (sameConstant_iff v w).2 (congrArg _ evaluated')
    rwa [sameConstant, Bool.or_eq_true, Bool.and_eq_true] at same
  · exact ⟨evaluate_error_of_mirrors mirrors, evaluate_error_of_mirrors mirrors.symm⟩

/-- Without bindings `x + 1 / 0` fails at the variable in strict arithmetic, and `1 / 0 + x` already
at the quotient. -/
theorem same_meaning_crossed :
    let quotient : Expr := .bin .div .one .zero
    let e : Expr := .bin .add (.var "x") quotient
    let f : Expr := .bin .add quotient (.var "x")
    e.same f = true ∧ e.Everywhere IsNotNegativeZero ∧ f.Everywhere IsNotNegativeZero ∧
      e.size = f.size ∧ e.depth = f.depth ∧ e.variableCounts = f.variableCounts ∧
      e.functionNames = f.functionNames ∧
      e.evaluate true .empty = .error (.unboundVariable "x") ∧
      f.evaluate true .empty = .error (.arithmetic (.zeroDivision .div 1.0 0.0)) ∧
      ∃ failure, f.evaluate true .empty = .error failure := by
  intro quotient e f
  have equal : e.same f = true := by decide +kernel
  have zero : (0.0 : Float) ≠ -0.0 := by decide +kernel
  have one : (1.0 : Float) ≠ -0.0 := by decide +kernel
  have positive : e.Everywhere IsNotNegativeZero := by
    simp [e, quotient, Expr.one, Expr.zero, IsNotNegativeZero, zero, one]
  have positive' : f.Everywhere IsNotNegativeZero := by
    simp [f, quotient, Expr.one, Expr.zero, IsNotNegativeZero, zero, one]
  have failed : e.evaluate true .empty = .error (.unboundVariable "x") := rfl
  obtain ⟨sizes, depths, counts, names, meaning⟩ := same_meaning equal positive positive'
  obtain ⟨-, fails⟩ := meaning true .empty
  exact ⟨equal, positive, positive', sizes, depths, counts, names, failed, rfl,
    fails.1 ⟨_, failed⟩⟩

end Expr

end Formula
