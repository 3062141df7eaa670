import Formula.Proofs.Expr.Evaluation
import Formula.Proofs.Simplify.Rewrites

/-!
Simplification ends and does not fail. The simplifier enters itself for the parts of an expression
and for what a rule over powers builds, and there is no endless row of such entries. Written as a
computation that may fail, in which entries are nested up to a limit, and with a guard against the
refusals of strict arithmetic around its folds and no other, it gives the simplified expression
whenever the limit is high enough.
-/

set_option autoImplicit false

namespace Formula.Expr

/-! ### Entries -/

/-- Simplifying the second expression simplifies the first one on the way: a part, or what a rule
over powers makes of the simplified operands. -/
inductive Enters (strict : Bool) (level : Level) : Expr → Expr → Prop
  | part {e part : Expr} (inside : part ∈ e.children) : Enters strict level part e
  | rewritten {op : BinaryOp} {left right e : Expr}
      (again : nextBinary strict op (simplify strict level left).tree
        (simplify strict level right).tree = .again e) :
      Enters strict level e (.bin op left right)

/-- A part has no more products and quotients, and fewer nodes. -/
theorem counts_of_part {e part : Expr} (inside : part ∈ e.children) :
    productCount part ≤ productCount e ∧ part.size < e.size := by
  have nodes := size_le_total inside
  rw [size_eq_children e]
  refine ⟨?_, by omega⟩
  cases e with
  | const value => cases inside
  | var name => cases inside
  | bin op left right =>
      simp only [children, List.mem_cons, List.not_mem_nil, or_false] at inside
      simp only [productCount]
      rcases inside with rfl | rfl <;> omega
  | neg operand =>
      rw [List.mem_singleton.1 inside]
      exact Nat.le_refl _
  | call name arguments => exact productCount_le_total inside

/-- What a rule over powers builds has fewer products and quotients than the operation had before
its operands were simplified. -/
theorem productCount_lt_of_rewritten {strict : Bool} {level : Level} {op : BinaryOp}
    {left right e : Expr}
    (again : nextBinary strict op (simplify strict level left).tree
      (simplify strict level right).tree = .again e) :
    productCount e < productCount (.bin op left right) :=
  calc productCount e
      < productCount (.bin op (simplify strict level left).tree (simplify strict level right).tree) :=
        nextBinary_again_productCount again
    _ ≤ productCount (.bin op left right) :=
        productCount_bin_le op (simplify_productCount strict level left)
          (simplify_productCount strict level right)

/-- There is no endless row of entries. Products and quotients become fewer when a rule over powers
is applied, and nodes become fewer otherwise. -/
theorem wellFounded_enters (strict : Bool) (level : Level) : WellFounded (Enters strict level) := by
  have measured := InvImage.wf (fun e => (productCount e, e.size))
    (Prod.lex Nat.lt_wfRel Nat.lt_wfRel).wf
  refine Subrelation.wf ?_ measured
  intro inner outer enters
  cases enters with
  | part inside =>
      obtain ⟨products, nodes⟩ := counts_of_part inside
      rcases Nat.lt_or_eq_of_le products with fewer | same
      · exact .left _ _ fewer
      · rw [InvImage, same]
        exact .right _ nodes
  | rewritten again => exact .left _ _ (productCount_lt_of_rewritten again)

/-! ### Failures let through -/

/-- What is made of the value of a fold: a refusal of strict arithmetic leaves the node as it is, and
any other failure goes on. -/
def guarded (evaluated : Fallible Float) : Fallible Folding :=
  match evaluated with
  | .ok v => .ok (.value v)
  | .error failure =>
    if failure.isArithmetic then .ok (.refused failure) else .error failure

def attemptBinary (strict : Bool) (op : BinaryOp) (left right : Expr) : Fallible Folding :=
  match left, right with
  | .const _, .const _ => guarded (evaluate strict .empty (.bin op left right))
  | _, _ => .ok .none

def attemptNext (strict : Bool) (op : BinaryOp) (left right : Expr) : Fallible Next := do
  match ← attemptBinary strict op left right with
  | .value v => return .settle (.const v)
  | _ =>
    match reduce op left right with
    | .settled e => return .settle e
    | .again e => return .again e
    | .none => return .keep

def attemptCall (strict : Bool) (name : String) (arguments : List Expr) : Fallible Folding :=
  match constants? arguments, Builtin.ofName? name with
  | some values, some f =>
    if f.argumentCount = values.length then do
      match ← guarded (evaluate strict .empty (.call name arguments)) with
      | .value v => return if v.isNaN && !values.any Float.isNaN then .outsideDomain else .value v
      | folding => return folding
    else .ok .none
  | _, _ => .ok .none

/-- Simplification as a computation that may fail, and in which only so many entries may be nested:
with one more of them there is no result at all. -/
def attempt (strict : Bool) : Nat → Expr → ExceptT Failure Option Expr
  | 0, _ => .mk none
  | depth + 1, e =>
    match e with
    | .const v => pure (.const v)
    | .var x => pure (.var x)
    | .neg operand => do
      let a ← attempt strict depth operand
      return (negated? a).getD (.neg a)
    | .call name arguments => do
      let trees ← arguments.mapM (attempt strict depth)
      match ← attemptCall strict name trees with
      | .value v => return .const v
      | _ => return .call name trees
    | .bin op left right => do
      let l ← attempt strict depth left
      let r ← attempt strict depth right
      match ← attemptNext strict op l r with
      | .settle e' => return e'
      | .again e' => attempt strict depth e'
      | .keep => return .bin op l r

section

variable {strict : Bool} {level : Level}

/-- Folding an operation fails only in strict arithmetic, which is guarded against. -/
theorem attemptBinary_eq (op : BinaryOp) (left right : Expr) :
    attemptBinary strict op left right = .ok (foldBinary strict op left right) := by
  cases left with
  | const a =>
      cases right with
      | const b =>
          have value : evaluate strict .empty (.bin op (.const a) (.const b)) =
              op.value strict a b := rfl
          simp only [attemptBinary, foldBinary, value]
          cases result : op.value strict a b with
          | ok v => rfl
          | error failure => simp only [guarded, BinaryOp.value_isArithmetic result, ↓reduceIte]
      | _ => rfl
  | _ => rfl

theorem attemptNext_eq (op : BinaryOp) (left right : Expr) :
    attemptNext strict op left right = .ok (nextBinary strict op left right) := by
  rw [attemptNext, attemptBinary_eq, nextBinary]
  cases foldBinary strict op left right with
  | value v => rfl
  | _ => cases reduce op left right <;> rfl

/-- Folding a call fails only in strict arithmetic: the function is there, takes the number of
arguments and has a value at them. -/
theorem attemptCall_eq (name : String) (arguments : List Expr) :
    attemptCall strict name arguments = .ok (foldCall strict name arguments) := by
  rw [attemptCall, foldCall]
  cases constants : constants? arguments with
  | none => rfl
  | some values =>
      cases (constants?_eq_some_iff arguments values).1 constants
      simp only [foldValues]
      cases found : Builtin.ofName? name with
      | none => rfl
      | some f =>
          simp only
          split
          · next fits =>
              cases Builtin.name_of_ofName? found
              obtain ⟨result, applied⟩ := Builtin.evaluator_ok fits
              rw [evaluate_builtin (by rw [List.length_map]; exact fits)
                (evaluateAll_constants strict .empty values) applied]
              cases checked : checkOverflow strict (.function f.name) values result with
              | ok v => rfl
              | error failure =>
                  simp only [guarded, checkOverflow_isArithmetic checked, ↓reduceIte]
                  rfl
          · rfl

/-- However many more entries may be nested, the attempt gives the simplified expression. -/
def Ends (strict : Bool) (level : Level) (e : Expr) : Prop :=
  ∃ bound, ∀ depth, bound ≤ depth → attempt strict depth e = pure (simplify strict level e).tree

/-- An entry needs one level more than the entries in it. -/
theorem ends_of_enough {e : Expr} (bound : Nat) (enough : ∀ depth, bound ≤ depth →
    attempt strict (depth + 1) e = pure (simplify strict level e).tree) : Ends strict level e := by
  refine ⟨bound + 1, fun depth above => ?_⟩
  obtain ⟨less, rfl⟩ : ∃ less, depth = less + 1 := ⟨depth - 1, by omega⟩
  exact enough less (by omega)

/-- Expressions whose simplifications end one by one have a common bound. -/
theorem mapM_attempt_eq (es : List Expr) (each : ∀ e ∈ es, Ends strict level e) :
    ∃ bound, ∀ depth, bound ≤ depth →
      es.mapM (attempt strict depth) = pure (simplifyAll strict level es).trees := by
  induction es with
  | nil => exact ⟨0, fun depth _ => by rw [List.mapM_nil, simplifyAll_nil]⟩
  | cons e rest ih =>
      obtain ⟨bound, first⟩ := each e List.mem_cons_self
      obtain ⟨bound', others⟩ := ih fun a inside => each a (List.mem_cons_of_mem e inside)
      refine ⟨max bound bound', fun depth above => ?_⟩
      rw [List.mapM_cons, first depth (by omega), others depth (by omega), simplifyAll_cons]
      rfl

theorem ends (e : Expr) : Ends strict level e := by
  induction e using (wellFounded_enters strict level).induction with
  | _ e ih =>
      have parts (part : Expr) (inside : part ∈ e.children) := ih part (.part inside)
      cases e with
      | const value => exact ends_of_enough 0 fun depth _ => by rw [attempt, simplify_const]
      | var name => exact ends_of_enough 0 fun depth _ => by rw [attempt, simplify_var]
      | neg operand =>
          obtain ⟨bound, inner⟩ := parts operand List.mem_cons_self
          refine ends_of_enough bound fun depth above => ?_
          rw [attempt, inner depth above, tree_simplify_neg]
          rfl
      | call name arguments =>
          obtain ⟨bound, inner⟩ := mapM_attempt_eq arguments parts
          refine ends_of_enough bound fun depth above => ?_
          rw [attempt, inner depth above, tree_simplify_call, pure_bind, attemptCall_eq, foldedCall?]
          cases foldCall strict name (simplifyAll strict level arguments).trees <;> rfl
      | bin op left right =>
          obtain ⟨bound, first⟩ := parts left List.mem_cons_self
          obtain ⟨bound', second⟩ := parts right (List.mem_cons_of_mem _ List.mem_cons_self)
          -- Only an operation that a rule over powers is applied to needs a level for what is built.
          cases next : nextBinary strict op (simplify strict level left).tree
            (simplify strict level right).tree with
          | again e =>
              obtain ⟨bound'', more⟩ := ih e (.rewritten next)
              refine ends_of_enough (max bound (max bound' bound'')) fun depth above => ?_
              rw [attempt, first depth (by omega), second depth (by omega), tree_simplify_bin,
                pure_bind, pure_bind, attemptNext_eq, next]
              exact more depth (by omega)
          | _ =>
              refine ends_of_enough (max bound bound') fun depth above => ?_
              rw [attempt, first depth (by omega), second depth (by omega), tree_simplify_bin,
                pure_bind, pure_bind, attemptNext_eq, next]
              rfl

end

/-- Simplifying ends: there is no endless row of entries. It gives an expression and never fails:
only refusals of strict arithmetic come up, and they are taken care of. What a rule over powers hands
on has fewer products and quotients than the operation it replaces, and no expression gets more of
them. -/
theorem simplify_ends (strict : Bool) (level : Level) :
    WellFounded (Enters strict level) ∧
      (∀ e, Ends strict level e) ∧
      (∀ op left right e, nextBinary strict op left right = .again e →
        productCount e < productCount (.bin op left right)) ∧
      ∀ e, productCount (simplify strict level e).tree ≤ productCount e :=
  ⟨wellFounded_enters strict level, ends, fun _ _ _ _ => nextBinary_again_productCount,
    simplify_productCount strict level⟩

/-- The product `x * x` is replaced by the power `x ^ (1 + 1)`. -/
theorem simplify_ends_square :
    nextBinary true .mul (.var "x") (.var "x") =
        .again (.bin .pow (.var "x") (.bin .add .one .one)) ∧
      productCount (.bin .pow (.var "x") (.bin .add .one .one)) <
        productCount (.bin .mul (.var "x") (.var "x")) :=
  ⟨rfl, (simplify_ends true .silent).2.2.1 _ _ _ _ rfl⟩

end Formula.Expr
