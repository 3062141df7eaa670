import Formula.Proofs.Expr.Mirrors

/-!
What walks meet. A walk on a stack lists the nodes of a tree before their parts, and a walk on a queue
lists them level by level; both meet every node once for each place where it stands. The depth counts the
levels, and the counts of variables are those of the leaves.
-/

set_option autoImplicit false

namespace Formula.Expr

/-! ### The stack -/

/-- A stack is walked through one expression after the other, each of them whole. -/
theorem visitStack_eq (stack : List Expr) : visitStack stack = preorderAll stack := by
  induction stack using visitStack.induct with
  | case1 => rw [visitStack, preorderAll]
  | case2 e rest ih =>
      rw [visitStack, ih, preorderAll_append, preorderAll, preorder_eq_children, List.cons_append]

theorem depthFirst_eq_preorder (e : Expr) : e.depthFirst = preorder e := by
  rw [depthFirst, visitStack_eq, preorderAll, preorderAll, List.append_nil]

/-! ### The queue -/

/-- The nodes so many steps below an expression, left to right. -/
def level : Nat → Expr → List Expr
  | 0, e => [e]
  | n + 1, e => e.children.flatMap (level n)

def levels (e : Expr) : List (List Expr) := (List.range e.height).map fun n => level n e

/-- The next level holds the children of this one. -/
theorem level_succ (n : Nat) (e : Expr) : level (n + 1) e = (level n e).flatMap children := by
  induction n generalizing e with
  | zero =>
      rw [level, level, List.flatMap_singleton]
      exact List.flatMap_singleton' e.children
  | succ n ih =>
      calc level (n + 2) e = e.children.flatMap fun child => (level n child).flatMap children :=
            List.flatMap_congr fun child _ => ih child
        _ = (level (n + 1) e).flatMap children := List.flatMap_assoc.symm

theorem heightAll_le_iff (es : List Expr) (n : Nat) : heightAll es ≤ n ↔ ∀ e ∈ es, e.height ≤ n := by
  induction es with
  | nil => simp [heightAll]
  | cons e rest ih => rw [heightAll, Nat.max_le, ih, List.forall_mem_cons]

/-- A level holds a node as long as it lies within the height. -/
theorem level_eq_nil_iff (n : Nat) (e : Expr) : level n e = [] ↔ e.height ≤ n := by
  induction n generalizing e with
  | zero =>
      have positive := height_pos e
      exact iff_of_false (List.cons_ne_nil e []) (by omega)
  | succ n ih =>
      have below := height_eq_children e
      have parts : level (n + 1) e = [] ↔ ∀ child ∈ e.children, child.height ≤ n := by
        rw [level, List.flatMap_eq_nil_iff]
        exact forall₂_congr fun child _ => ih child
      rw [parts, ← heightAll_le_iff]
      omega

/-- While a level is worked off, the next one collects behind it: what is left of the level, and the
children of what was taken from it, are all that the queue holds. -/
theorem visitQueue_append (left next : List Expr) :
    visitQueue (left ++ next) = left ++ visitQueue (next ++ left.flatMap children) := by
  induction left generalizing next with
  | nil => rw [List.nil_append, List.nil_append, List.flatMap_nil, List.append_nil]
  | cons e rest ih =>
      rw [List.cons_append, visitQueue, List.append_assoc, ih, List.flatMap_cons, List.cons_append,
        List.append_assoc]

/-- From the start of a level on, the walk goes through so many levels and then on from a start. -/
theorem visitQueue_level (first count : Nat) (e : Expr) :
    visitQueue (level first e) =
      ((List.range' first count).flatMap fun n => level n e) ++
        visitQueue (level (first + count) e) := by
  induction count generalizing first with
  | zero => simp
  | succ count ih =>
      have whole := visitQueue_append (level first e) []
      rw [List.append_nil, List.nil_append, ← level_succ, ih (first + 1)] at whole
      rw [whole, List.range'_succ, List.flatMap_cons, List.append_assoc, Nat.succ_add_eq_add_succ]

theorem breadthFirst_eq_levels (e : Expr) : e.breadthFirst = e.levels.flatten := by
  have walk := visitQueue_level 0 e.height e
  have past : level (0 + e.height) e = [] := (level_eq_nil_iff _ e).2 (by omega)
  rw [past, visitQueue, List.append_nil, ← List.range_eq_range'] at walk
  exact walk

/-! ### Depths -/

theorem heightAll_eq_max (es : List Expr) : heightAll es = (es.map height).max?.getD 0 := by
  induction es with
  | nil => rfl
  | cons e rest ih =>
      rw [heightAll, ih, List.map_cons, List.max?_cons]
      cases (rest.map height).max? with
      | none => exact Nat.max_zero _
      | some deepest => rfl

/-- A leaf has depth one, any other node is one deeper than the deepest of its children. -/
theorem depth_eq_children (e : Expr) : e.depth = 1 + (e.children.map depth).max?.getD 0 := by
  have same : e.children.map depth = e.children.map height :=
    List.map_congr_left fun child _ => depth_eq_height child
  rw [same, ← heightAll_eq_max, depth_eq_height, height_eq_children]

theorem length_levels (e : Expr) : e.levels.length = e.depth := by
  rw [levels, List.length_map, List.length_range, depth_eq_height]

/-! ### Variables -/

mutual

def occurrences (x : String) : Expr → Nat
  | .const _ => 0
  | .var name => if name = x then 1 else 0
  | .bin _ left right => occurrences x left + occurrences x right
  | .neg operand => occurrences x operand
  | .call _ arguments => totalOccurrences x arguments

def totalOccurrences (x : String) : List Expr → Nat
  | [] => 0
  | e :: rest => occurrences x e + totalOccurrences x rest

end

attribute [simp] occurrences totalOccurrences

/-- The names that nodes bear as variables, each as often as there are such leaves. -/
theorem count_preorder (x : String) (e : Expr) :
    ((preorder e).filterMap variableName?).count x = occurrences x e := by
  induction e using Expr.induction with
  | const value => rfl
  | var name =>
      have only : (preorder (.var name)).filterMap variableName? = [name] := rfl
      rw [only, occurrences, List.count_singleton]
      simp only [beq_iff_eq]
  | bin op left right first second =>
      rw [preorder, occurrences, List.filterMap_cons_none rfl, List.filterMap_append,
        List.count_append, first, second]
  | neg operand ih => rw [preorder, occurrences, List.filterMap_cons_none rfl, ih]
  | call name arguments ih =>
      rw [preorder, occurrences, List.filterMap_cons_none rfl]
      induction arguments with
      | nil => rfl
      | cons a rest more =>
          rw [preorderAll, totalOccurrences, List.filterMap_append, List.count_append,
            ih a List.mem_cons_self, more fun b inside => ih b (List.mem_cons_of_mem a inside)]

theorem count_breadthFirst (x : String) (e : Expr) :
    (e.breadthFirst.filterMap variableName?).count x = occurrences x e := by
  rw [((breadthFirst_perm e).filterMap variableName?).count_eq, count_preorder]

theorem mem_variableNames_iff_occurrences (x : String) (e : Expr) :
    x ∈ e.variableNames ↔ 0 < occurrences x e := by
  rw [variableNames, Text.mem_sortedNames, ← count_breadthFirst, List.count_pos_iff]

theorem mem_variableCounts (x : String) (n : Nat) (e : Expr) :
    (x, n) ∈ e.variableCounts ↔ n = occurrences x e ∧ 0 < n := by
  rw [variableCounts, List.mem_map]
  constructor
  · rintro ⟨name, inside, pair⟩
    cases pair
    refine ⟨count_breadthFirst x e, ?_⟩
    rwa [Text.mem_sortedNames, ← List.count_pos_iff] at inside
  · rintro ⟨rfl, some⟩
    refine ⟨x, (mem_variableNames_iff_occurrences x e).2 some, ?_⟩
    rw [count_breadthFirst]

theorem names_variableCounts (e : Expr) : e.variableCounts.map Prod.fst = e.variableNames := by
  rw [variableCounts, List.map_map]
  exact List.map_id _

theorem nodup_variableNames (e : Expr) : e.variableNames.Nodup :=
  (List.mergeSort_perm _ _).nodup_iff.2 (Text.nodup_eraseDups _)

/-! ### All walks -/

/-- A walk in depth lists each node before its parts, which follow left to right, and a walk in breadth
lists level after level. Both meet the same nodes equally often, and as many as the size says. The depth of
a leaf is one and that of any other node one more than the greatest among its children, and there are as
many levels. The counts of variables give each name that occurs once, with the number of its leaves, and
their names are the names of the variables. -/
theorem walks_agree (e : Expr) :
    e.depthFirst = preorder e ∧ e.breadthFirst = e.levels.flatten ∧
      e.breadthFirst.Perm e.depthFirst ∧ e.depthFirst.length = e.size ∧
      e.breadthFirst.length = e.size ∧
      e.depth = 1 + (e.children.map depth).max?.getD 0 ∧ e.levels.length = e.depth ∧
      (∀ n, level n e = [] ↔ e.depth ≤ n) ∧
      (∀ x n, (x, n) ∈ e.variableCounts ↔ n = occurrences x e ∧ 0 < n) ∧
      (e.variableCounts.map Prod.fst).Nodup ∧ e.variableCounts.map Prod.fst = e.variableNames := by
  have inDepth := depthFirst_eq_preorder e
  have inBreadth := breadthFirst_perm e
  refine ⟨inDepth, breadthFirst_eq_levels e, inDepth ▸ inBreadth, ?_, ?_, depth_eq_children e,
    length_levels e, fun n => ?_, fun x n => mem_variableCounts x n e, ?_, names_variableCounts e⟩
  · rw [inDepth, length_preorder]
  · rw [inBreadth.length_eq, length_preorder]
  · rw [depth_eq_height, level_eq_nil_iff]
  · rw [names_variableCounts]
    exact nodup_variableNames e

/-- The nodes of `f(x, y) * x` level by level, and each before its parts. -/
example :
    let e : Expr := .bin .mul (.call "f" [.var "x", .var "y"]) (.var "x")
    e.levels = [[e], [.call "f" [.var "x", .var "y"], .var "x"], [.var "x", .var "y"]] ∧
      preorder e = [e, .call "f" [.var "x", .var "y"], .var "x", .var "y", .var "x"] ∧
      occurrences "x" e = 2 :=
  ⟨rfl, rfl, rfl⟩

end Formula.Expr
