import Formula.Expr.Basic

/-!
Equality of expressions: sums and products are equal up to the order of their operands, constants
by numeric value, and not-a-number equals itself. Hashes respect this equality, so that the number
of different expressions can be counted by them. An expression can also be compared inside a wrapper,
which asks the expression it holds.
-/

set_option autoImplicit false

namespace Formula

/-- Constants are equal if their values are, or if neither is a number. -/
def sameConstant (a b : Float) : Bool := a == b || (a.isNaN && b.isNaN)

namespace Expr

mutual

/-- Two expressions are equal up to the order of the operands of sums and products. -/
def same : Expr → Expr → Bool
  | .const a, .const b => sameConstant a b
  | .var m, .var n => m == n
  | .bin op left right, .bin op' left' right' =>
    op == op' && (same left left' && same right right' ||
      op.commutes && (same left right' && same right left'))
  | .neg a, .neg b => same a b
  | .call f as, .call g bs => f == g && sameAll as bs
  | _, _ => false

def sameAll : List Expr → List Expr → Bool
  | [], [] => true
  | a :: as, b :: bs => same a b && sameAll as bs
  | _, _ => false

end

end Expr

/-- The primitive hashes from which an expression's hash is made. -/
structure Hashing where
  number : Float → UInt64
  notANumber : UInt64
  name : String → UInt64
  /-- Of an operation whose operands keep their order. -/
  ordered : BinaryOp → UInt64 → UInt64 → UInt64
  /-- Of an operation whose operands do not; the smaller hash comes first. -/
  unordered : BinaryOp → UInt64 → UInt64 → UInt64
  negation : UInt64 → UInt64
  call : String → List UInt64 → UInt64

namespace Expr

mutual

def hash (h : Hashing) : Expr → UInt64
  | .const value => if value.isNaN then h.notANumber else h.number value
  | .var name => h.name name
  | .bin op left right =>
    let a := hash h left
    let b := hash h right
    if op.commutes then h.unordered op (min a b) (max a b) else h.ordered op a b
  | .neg operand => h.negation (hash h operand)
  | .call name arguments => h.call name (hashAll h arguments)

def hashAll (h : Hashing) : List Expr → List UInt64
  | [] => []
  | e :: rest => hash h e :: hashAll h rest

end

/-- Keep of several expressions those that no earlier one equals, comparing only expressions of
one hash. -/
def distinctBy (h : Hashing) : List (UInt64 × Expr) → List Expr → List (UInt64 × Expr)
  | seen, [] => seen
  | seen, e :: rest =>
    let code := hash h e
    if seen.any fun other => other.1 == code && same other.2 e then distinctBy h seen rest
    else distinctBy h (seen ++ [(code, e)]) rest

def distinctCount (h : Hashing) (es : List Expr) : Nat := (distinctBy h [] es).length

end Expr

/-- A side of a comparison: an expression by itself, or in a wrapper. -/
inductive Comparand where
  | bare (e : Expr)
  | wrapped (root : Expr)

namespace Comparand

def tree : Comparand → Expr
  | .bare e | .wrapped e => e

/-- The answer of one side about the other. A wrapper knows wrappers and expressions; an expression
knows expressions, and has no answer about a wrapper. -/
def answer? : Comparand → Comparand → Option Bool
  | .wrapped e, .wrapped f | .wrapped e, .bare f | .bare e, .bare f => some (e.same f)
  | .bare _, .wrapped _ => none

/-- Compare two sides. The left one is asked first, and the right one if the left has no answer; what
neither knows is different. -/
def equals (a b : Comparand) : Bool := ((a.answer? b).or (b.answer? a)).getD false

/-- A wrapper has the hash of the expression in it. -/
def hash (h : Hashing) (c : Comparand) : UInt64 := c.tree.hash h

end Comparand

namespace Hashing

def operatorSeed (op : BinaryOp) : UInt64 :=
  match op with
  | .add => 2
  | .sub => 3
  | .mul => 5
  | .div => 7
  | .pow => 11

/-- Hashes mixed from bits and texts. Both zeros have the hash of the positive one. -/
def standard : Hashing where
  number x := mixHash 13 (if x == 0.0 then (0.0 : Float).toBits else x.toBits)
  notANumber := 17
  name text := mixHash 19 (Hashable.hash text)
  ordered op a b := mixHash (operatorSeed op) (mixHash a b)
  unordered op a b := mixHash (operatorSeed op) (mixHash a b)
  negation a := mixHash 23 a
  call name hs := hs.foldl mixHash (mixHash 29 (Hashable.hash name))

end Hashing

end Formula
