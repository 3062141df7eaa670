import Formula.Decimal.Binary
import Formula.Expr.Traversal

/-!
Nodes of an expression. A property of nodes can hold everywhere in an expression: at every node that
the walk level by level meets. The depth found by the walk over all nodes is the height of the tree.
-/

set_option autoImplicit false

namespace Formula.Expr

/-- Prove a property of an expression from that of its children, whatever node it is. -/
theorem children_induction {motive : Expr → Prop}
    (step : ∀ e, (∀ child ∈ e.children, motive child) → motive e) (e : Expr) : motive e := by
  induction e using Expr.induction with
  | const value => exact step _ (by simp [children])
  | var name => exact step _ (by simp [children])
  | bin op left right first second => exact step _ (by simp [children, first, second])
  | neg operand ih => exact step _ (by simp [children, ih])
  | call name arguments ih => exact step _ ih

/-- A property holds at every node. -/
inductive Everywhere (p : Expr → Prop) : Expr → Prop
  | node (e : Expr) : p e → (∀ child ∈ e.children, Everywhere p child) → Everywhere p e

namespace Everywhere

variable {p q : Expr → Prop} {e : Expr}

theorem root (everywhere : Everywhere p e) : p e := by
  cases everywhere with
  | node _ holds _ => exact holds

theorem child (everywhere : Everywhere p e) {part : Expr} (inside : part ∈ e.children) :
    Everywhere p part := by
  cases everywhere with
  | node _ _ parts => exact parts part inside

theorem left {op : BinaryOp} {left right : Expr} (everywhere : Everywhere p (.bin op left right)) :
    Everywhere p left :=
  everywhere.child (by simp [children])

theorem right {op : BinaryOp} {left right : Expr}
    (everywhere : Everywhere p (.bin op left right)) : Everywhere p right :=
  everywhere.child (by simp [children])

theorem operand {a : Expr} (everywhere : Everywhere p (.neg a)) : Everywhere p a :=
  everywhere.child (by simp [children])

theorem argument {name : String} {arguments : List Expr}
    (everywhere : Everywhere p (.call name arguments)) {a : Expr} (inside : a ∈ arguments) :
    Everywhere p a :=
  everywhere.child inside

theorem mono (implies : ∀ e, p e → q e) (everywhere : Everywhere p e) : Everywhere q e := by
  induction everywhere with
  | node e holds _ ih => exact .node e (implies e holds) ih

theorem and (first : Everywhere p e) (second : Everywhere q e) :
    Everywhere (fun e => p e ∧ q e) e := by
  induction first with
  | node e holds _ ih =>
      exact .node e ⟨holds, second.root⟩ fun child inside => ih child inside (second.child inside)

/-- What holds at every node holds so of every part. -/
theorem nested (everywhere : Everywhere p e) : Everywhere (Everywhere p) e := by
  induction everywhere with
  | node e holds parts ih => exact .node e (.node e holds parts) ih

end Everywhere

section

variable {p : Expr → Prop}

theorem everywhere_iff (e : Expr) :
    Everywhere p e ↔ p e ∧ ∀ child ∈ e.children, Everywhere p child :=
  ⟨fun everywhere => ⟨everywhere.root, fun _ inside => everywhere.child inside⟩,
    fun ⟨root, parts⟩ => .node e root parts⟩

@[simp] theorem everywhere_const (value : Float) :
    Everywhere p (.const value) ↔ p (.const value) := by
  rw [everywhere_iff]
  simp [children]

@[simp] theorem everywhere_var (name : String) : Everywhere p (.var name) ↔ p (.var name) := by
  rw [everywhere_iff]
  simp [children]

@[simp] theorem everywhere_bin (op : BinaryOp) (left right : Expr) :
    Everywhere p (.bin op left right) ↔
      p (.bin op left right) ∧ Everywhere p left ∧ Everywhere p right := by
  rw [everywhere_iff]
  simp [children]

@[simp] theorem everywhere_neg (operand : Expr) :
    Everywhere p (.neg operand) ↔ p (.neg operand) ∧ Everywhere p operand := by
  rw [everywhere_iff]
  simp [children]

@[simp] theorem everywhere_call (name : String) (arguments : List Expr) :
    Everywhere p (.call name arguments) ↔
      p (.call name arguments) ∧ ∀ a ∈ arguments, Everywhere p a := by
  rw [everywhere_iff]
  simp [children]

/-- The walk level by level meets every node below its queue and no other one. -/
theorem forall_visitQueue (queue : List Expr) :
    (∀ n ∈ visitQueue queue, p n) ↔ ∀ e ∈ queue, Everywhere p e := by
  induction queue using visitQueue.induct with
  | case1 => simp [visitQueue]
  | case2 e rest ih =>
      rw [visitQueue, List.forall_mem_cons, ih, List.forall_mem_append, List.forall_mem_cons,
        everywhere_iff e, and_assoc, and_comm (a := ∀ child ∈ e.children, Everywhere p child)]

theorem everywhere_iff_forall_node (e : Expr) : Everywhere p e ↔ ∀ n ∈ e.breadthFirst, p n := by
  rw [breadthFirst, forall_visitQueue, List.forall_mem_singleton]

theorem mem_variableNames (e : Expr) (x : String) :
    x ∈ e.variableNames ↔ .var x ∈ e.breadthFirst := by
  rw [variableNames, Text.mem_sortedNames, List.mem_filterMap]
  constructor
  · rintro ⟨n, inside, named⟩
    cases n with
    | var y =>
        cases named
        exact inside
    | _ => cases named
  · intro inside
    exact ⟨.var x, inside, rfl⟩

theorem mem_functionNames (e : Expr) (name : String) :
    name ∈ e.functionNames ↔ ∃ arguments, .call name arguments ∈ e.breadthFirst := by
  rw [functionNames, Text.mem_sortedNames, List.mem_filterMap]
  constructor
  · rintro ⟨n, inside, named⟩
    cases n with
    | call other arguments =>
        cases named
        exact ⟨arguments, inside⟩
    | _ => cases named
  · rintro ⟨arguments, inside⟩
    exact ⟨.call name arguments, inside, rfl⟩

theorem mem_breadthFirst_of_child {e part n : Expr} (child : part ∈ e.children)
    (inside : n ∈ part.breadthFirst) : n ∈ e.breadthFirst := by
  apply Classical.byContradiction
  intro absent
  have others : e.Everywhere (· ≠ n) := by
    rw [everywhere_iff_forall_node]
    intro m found same
    exact absent (same ▸ found)
  exact (everywhere_iff_forall_node part).1 (others.child child) n inside rfl

theorem self_mem_breadthFirst (e : Expr) : e ∈ e.breadthFirst := by
  rw [breadthFirst, visitQueue]
  exact List.mem_cons_self

end

/-- A node that is no constant, or a finite one. -/
def HasFiniteValue : Expr → Prop
  | .const value => ∃ b, Decimal.decode value = .finite b
  | .var _ | .bin .. | .neg _ | .call .. => True

mutual

/-- The number of nodes on the longest way down. -/
def height : Expr → Nat
  | .const _ | .var _ => 1
  | .bin _ left right => 1 + max (height left) (height right)
  | .neg operand => 1 + height operand
  | .call _ arguments => 1 + heightAll arguments

def heightAll : List Expr → Nat
  | [] => 0
  | e :: rest => max (height e) (heightAll rest)

end

attribute [simp] height heightAll

theorem height_pos (e : Expr) : 0 < height e := by
  cases e <;> simp only [height] <;> omega

theorem height_eq_children (e : Expr) : height e = 1 + heightAll e.children := by
  cases e with
  | bin op left right => simp only [height, children, heightAll, Nat.max_zero]
  | neg operand => simp only [height, children, heightAll, Nat.max_zero]
  | const value => rfl
  | var name => rfl
  | call name arguments => rfl

/-- The greatest depth that a stack of nodes with their depths reaches. -/
def reach : List (Nat × Expr) → Nat
  | [] => 0
  | (depth, e) :: rest => max (depth + height e - 1) (reach rest)

theorem reach_append (first second : List (Nat × Expr)) :
    reach (first ++ second) = max (reach first) (reach second) := by
  induction first with
  | nil => simp only [List.nil_append, reach, Nat.zero_max]
  | cons node rest ih =>
      obtain ⟨depth, e⟩ := node
      simp only [List.cons_append, reach, ih]
      omega

theorem reach_children (depth : Nat) (es : List Expr) :
    max depth (reach (es.map fun child => (depth + 1, child))) = depth + heightAll es := by
  induction es with
  | nil => simp only [List.map_nil, reach, heightAll, Nat.max_zero, Nat.add_zero]
  | cons e rest ih =>
      have positive := height_pos e
      simp only [List.map_cons, reach, heightAll]
      omega

/-- The walk finds the deepest node. -/
theorem deepest_eq (found : Nat) (stack : List (Nat × Expr)) :
    deepest found stack = max found (reach stack) := by
  induction found, stack using deepest.induct with
  | case1 found => simp only [deepest, reach, Nat.max_zero]
  | case2 found depth e rest ih =>
      have below := reach_children depth e.children
      have whole := height_eq_children e
      rw [deepest, ih, reach_append]
      simp only [reach]
      omega

theorem depth_eq_height (e : Expr) : e.depth = height e := by
  have positive := height_pos e
  rw [depth, deepest_eq]
  simp only [reach]
  omega

mutual

/-- The nodes of an expression, each before its parts. -/
def preorder : Expr → List Expr
  | .const value => [.const value]
  | .var name => [.var name]
  | .bin op left right => .bin op left right :: (preorder left ++ preorder right)
  | .neg operand => .neg operand :: preorder operand
  | .call name arguments => .call name arguments :: preorderAll arguments

def preorderAll : List Expr → List Expr
  | [] => []
  | e :: rest => preorder e ++ preorderAll rest

end

attribute [simp] preorder preorderAll

theorem preorder_eq_children (e : Expr) : preorder e = e :: preorderAll e.children := by
  cases e with
  | bin op left right => simp only [preorder, children, preorderAll, List.append_nil]
  | neg operand => simp only [preorder, children, preorderAll, List.append_nil]
  | const value => rfl
  | var name => rfl
  | call name arguments => rfl

theorem preorderAll_append (es fs : List Expr) :
    preorderAll (es ++ fs) = preorderAll es ++ preorderAll fs := by
  induction es with
  | nil => rfl
  | cons e rest ih => rw [List.cons_append, preorderAll, preorderAll, ih, List.append_assoc]

/-- The walk level by level meets the same nodes, each as often, in another order. -/
theorem visitQueue_perm (queue : List Expr) : (visitQueue queue).Perm (preorderAll queue) := by
  induction queue using visitQueue.induct with
  | case1 => rw [visitQueue, preorderAll]
  | case2 e rest ih =>
      rw [visitQueue, preorderAll, preorder_eq_children, List.cons_append, List.perm_cons]
      apply ih.trans
      rw [preorderAll_append]
      exact List.perm_append_comm

theorem breadthFirst_perm (e : Expr) : e.breadthFirst.Perm (preorder e) := by
  have walk := visitQueue_perm [e]
  rwa [preorderAll, preorderAll, List.append_nil] at walk

theorem length_visitQueue (queue : List Expr) : (visitQueue queue).length = totalSize queue := by
  induction queue using visitQueue.induct with
  | case1 => rw [visitQueue, totalSize, List.length_nil]
  | case2 e rest ih =>
      have parts := size_eq_children e
      rw [visitQueue, List.length_cons, ih, totalSize_append, totalSize]
      omega

theorem length_preorder (e : Expr) : (preorder e).length = e.size := by
  rw [← (breadthFirst_perm e).length_eq, breadthFirst, length_visitQueue, totalSize, totalSize,
    Nat.add_zero]

end Formula.Expr
