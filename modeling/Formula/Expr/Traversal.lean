import Formula.Expr.Basic
import Formula.Failure
import Formula.Text.Names

/-!
Walks through an expression. A walk keeps the nodes still to visit in a list: taken from its
front and their parts put in front, the walk is depth first; the parts put at its back, it is
breadth first.
-/

set_option autoImplicit false

namespace Formula

inductive Traversal where
  | breadthFirst
  | depthFirst
  deriving DecidableEq

def Traversal.ofName (name : String) : Fallible Traversal :=
  if name = "breadth_first" then .ok .breadthFirst
  else if name = "depth_first" then .ok .depthFirst
  else .error (.wrongValue (.traversalOrder name))

namespace Expr

theorem totalSize_children_append_lt (e : Expr) (rest : List Expr) :
    totalSize (e.children ++ rest) < totalSize (e :: rest) := by
  rw [totalSize_append]
  have h := size_eq_children e
  simp only [totalSize]
  omega

theorem totalSize_append_children_lt (e : Expr) (rest : List Expr) :
    totalSize (rest ++ e.children) < totalSize (e :: rest) := by
  rw [totalSize_append]
  have h := size_eq_children e
  simp only [totalSize]
  omega

/-- The nodes below a queue, level by level. -/
def visitQueue : List Expr → List Expr
  | [] => []
  | e :: rest => e :: visitQueue (rest ++ e.children)
termination_by queue => totalSize queue
decreasing_by exact totalSize_append_children_lt e rest

/-- The nodes below a stack, each before its parts. -/
def visitStack : List Expr → List Expr
  | [] => []
  | e :: rest => e :: visitStack (e.children ++ rest)
termination_by stack => totalSize stack
decreasing_by exact totalSize_children_append_lt e rest

/-- All nodes, level by level. -/
def breadthFirst (e : Expr) : List Expr := visitQueue [e]

/-- All nodes, each before its parts. -/
def depthFirst (e : Expr) : List Expr := visitStack [e]

def nodes (e : Expr) : Traversal → List Expr
  | .breadthFirst => e.breadthFirst
  | .depthFirst => e.depthFirst

/-- The greatest depth found from a stack of nodes with their depths. -/
def deepest (found : Nat) : List (Nat × Expr) → Nat
  | [] => found
  | (depth, e) :: rest =>
    deepest (max found depth) ((e.children.map fun child => (depth + 1, child)) ++ rest)
termination_by stack => totalSize (stack.map Prod.snd)
decreasing_by
  simp only [List.map_append, List.map_map, List.map_cons]
  have h := totalSize_children_append_lt e (rest.map Prod.snd)
  simpa [Function.comp_def] using h

/-- The number of nodes on the longest way down; a leaf has depth one. -/
def depth (e : Expr) : Nat := deepest 0 [(1, e)]

def variableName? : Expr → Option String
  | .var name => some name
  | _ => none

def calledName? : Expr → Option String
  | .call name _ => some name
  | _ => none

def variableNames (e : Expr) : List String :=
  Text.sortedNames (e.breadthFirst.filterMap variableName?)

def functionNames (e : Expr) : List String :=
  Text.sortedNames (e.breadthFirst.filterMap calledName?)

/-- How often each variable occurs, in the order of the names. -/
def variableCounts (e : Expr) : List (String × Nat) :=
  let occurrences := e.breadthFirst.filterMap variableName?
  (Text.sortedNames occurrences).map fun name => (name, occurrences.count name)

def findNodes (e : Expr) (test : Expr → Bool) : List Expr := e.depthFirst.filter test

inductive NodeKind where
  | const
  | var
  | bin
  | neg
  | call
  deriving DecidableEq

def kind : Expr → NodeKind
  | .const _ => .const
  | .var _ => .var
  | .bin .. => .bin
  | .neg _ => .neg
  | .call .. => .call

def name? : Expr → Option String
  | .var name | .call name _ => some name
  | _ => none

end Expr

end Formula
