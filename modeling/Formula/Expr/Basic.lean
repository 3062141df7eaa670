import Formula.Operator

/-!
Expressions as trees, with their size and their parts.
-/

set_option autoImplicit false

namespace Formula

/-- An expression: a constant, a variable, an operation or a call. -/
inductive Expr where
  | const (value : Float)
  | var (name : String)
  | bin (op : BinaryOp) (left right : Expr)
  | neg (operand : Expr)
  | call (name : String) (arguments : List Expr)
  deriving Inhabited

namespace Expr

/-- Prove a property of an expression from that of its parts. -/
theorem induction {motive : Expr → Prop} (const : ∀ value, motive (.const value))
    (var : ∀ name, motive (.var name))
    (bin : ∀ op left right, motive left → motive right → motive (.bin op left right))
    (neg : ∀ operand, motive operand → motive (.neg operand))
    (call : ∀ name arguments, (∀ a ∈ arguments, motive a) → motive (.call name arguments))
    (e : Expr) : motive e :=
  Expr.rec (motive_1 := motive) (motive_2 := fun es => ∀ a ∈ es, motive a)
    const var (fun op left right hl hr => bin op left right hl hr) neg call
    (fun _ h => nomatch h)
    (fun head tail hhead htail a ha => by
      rcases List.mem_cons.1 ha with rfl | h
      · exact hhead
      · exact htail a h)
    e

/-- The parts of an expression, left to right. -/
def children : Expr → List Expr
  | .const _ | .var _ => []
  | .bin _ left right => [left, right]
  | .neg operand => [operand]
  | .call _ arguments => arguments

mutual

def size : Expr → Nat
  | .const _ | .var _ => 1
  | .bin _ left right => 1 + size left + size right
  | .neg operand => 1 + size operand
  | .call _ arguments => 1 + totalSize arguments

def totalSize : List Expr → Nat
  | [] => 0
  | e :: rest => size e + totalSize rest

end

theorem totalSize_append (es fs : List Expr) :
    totalSize (es ++ fs) = totalSize es + totalSize fs := by
  induction es with
  | nil => simp only [List.nil_append, totalSize, Nat.zero_add]
  | cons e rest ih => simp only [List.cons_append, totalSize, ih, Nat.add_assoc]

theorem size_pos (e : Expr) : 0 < e.size := by
  cases e <;> simp only [size] <;> omega

theorem size_eq_children (e : Expr) : e.size = 1 + totalSize e.children := by
  cases e <;> simp only [size, children, totalSize] <;> omega

def zero : Expr := .const 0.0

def one : Expr := .const 1.0

def two : Expr := .const 2.0

def constant? : Expr → Option Float
  | .const value => some value
  | _ => none

/-- The constant of a numeric value; both zeros count as zero. -/
def isConstant (value : Float) : Expr → Bool
  | .const c => c == value
  | _ => false

def isVariable (name : String) : Expr → Bool
  | .var n => n == name
  | _ => false

theorem isVariable_iff (name : String) (e : Expr) : e.isVariable name = true ↔ e = .var name := by
  cases e <;> simp [isVariable]

/-- The values of expressions that are all constants. -/
def constants? : List Expr → Option (List Float)
  | [] => some []
  | .const value :: rest => (constants? rest).map (value :: ·)
  | _ :: _ => none

theorem constants?_eq_some_iff (es : List Expr) (values : List Float) :
    constants? es = some values ↔ es = values.map .const := by
  induction es generalizing values with
  | nil => cases values <;> simp [constants?]
  | cons e rest ih =>
    cases values with
    | nil => cases e <;> simp [constants?]
    | cons value values =>
      cases e <;> simp [constants?, ih]
      exact And.comm

end Expr

/-- The constants that derivatives and reductions share. -/
inductive SharedConstant where
  | zero
  | one
  deriving DecidableEq

/-- The shared constant of a value. A negative zero is none: a quotient by it has another sign. -/
def SharedConstant.ofValue? (value : Float) : Option SharedConstant :=
  if value == 0.0 && 0.0 < 1.0 / value then some .zero
  else if value == 1.0 then some .one
  else none

end Formula
