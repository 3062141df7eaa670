import Formula.Expr.Basic

/-!
The reduction rules of operations. Each rule looks at an operator and its two operands and leaves
operands in their order; like terms are not collected. The rules over powers of one variable
build new trees that are worth another look; every such tree has fewer products and quotients than
the operation it replaces.
-/

set_option autoImplicit false

namespace Formula

namespace BinaryOp

def isFactoring : BinaryOp → Bool
  | .mul | .div => true
  | _ => false

end BinaryOp

namespace Expr

mutual

/-- The number of products and quotients. -/
def productCount : Expr → Nat
  | .const _ | .var _ => 0
  | .bin op left right => op.isFactoring.toNat + productCount left + productCount right
  | .neg operand => productCount operand
  | .call _ arguments => totalProducts arguments

def totalProducts : List Expr → Nat
  | [] => 0
  | e :: rest => productCount e + totalProducts rest

end

/-- A neutral or an absorbing operand decides the result. -/
def identity? (op : BinaryOp) (left right : Expr) : Option Expr :=
  match op with
  | .add =>
    if left.isConstant 0.0 then some right
    else if right.isConstant 0.0 then some left
    else none
  | .sub => if right.isConstant 0.0 then some left else none
  | .mul =>
    if left.isConstant 0.0 || right.isConstant 0.0 then some .zero
    else if left.isConstant 1.0 then some right
    else if right.isConstant 1.0 then some left
    else none
  | .div =>
    if left.isConstant 0.0 then some .zero
    else if right.isConstant 1.0 then some left
    else none
  | .pow =>
    if right.isConstant 1.0 then some left
    else if right.isConstant 0.0 then some .one
    else if left.isConstant 1.0 then some .one
    else if left.isConstant 0.0 then some .zero
    else none

/-- A variable as its first power, and a power of a variable: the variable and the exponent. -/
def powerForm? : Expr → Option (String × Expr)
  | .var x => some (x, .one)
  | .bin .pow (.var x) a => some (x, a)
  | _ => none

/-- A quotient by a variable: the dividend and the variable. -/
def overVariable? : Expr → Option (Expr × String)
  | .bin .div c (.var x) => some (c, x)
  | _ => none

/-- Powers of one variable: the variable and the two exponents. -/
def commonBase? (left right : Expr) : Option (String × Expr × Expr) :=
  match powerForm? left, powerForm? right with
  | some (x, a), some (y, b) => if x = y then some (x, a, b) else none
  | _, _ => none

/-- `x ^ a * (c / x)` is `c * x ^ (a - 1)`, and `k * (1 / x)` is `k / x` for a constant `k`. -/
def timesQuotient? (factor other : Expr) : Option Expr :=
  match overVariable? other with
  | none => none
  | some (c, x) =>
    match powerForm? factor with
    | some (y, a) =>
      if y = x then some (.bin .mul c (.bin .pow (.var x) (.bin .sub a .one))) else none
    | none =>
      match factor with
      | .const _ => if c.isConstant 1.0 then some (.bin .div factor (.var x)) else none
      | _ => none

/-- `(k * x) / x` and `(x * k) / x` are `k`. -/
def cancelled? : Expr → Expr → Option Expr
  | .bin .mul a b, .var x =>
    if b.isVariable x then some a else if a.isVariable x then some b else none
  | _, _ => none

/-- What a rule makes of an operation. -/
inductive Reduction where
  /-- No rule applies. -/
  | none
  /-- The result of a rule; nothing in it can be reduced any more. -/
  | settled (e : Expr)
  /-- The result of a rule, to be simplified in turn. -/
  | again (e : Expr)

def powerRule (op : BinaryOp) (left right : Expr) : Reduction :=
  match op with
  | .mul =>
    match timesQuotient? left right with
    | some e => .again e
    | none =>
      match timesQuotient? right left with
      | some e => .again e
      | none =>
        match commonBase? left right with
        | some (x, a, b) => .again (.bin .pow (.var x) (.bin .add a b))
        | none => .none
  | .div =>
    match cancelled? left right with
    | some e => .settled e
    | none =>
      match commonBase? left right with
      | some (x, a, b) => .again (.bin .pow (.var x) (.bin .sub a b))
      | none => .none
  | _ => .none

/-- The rules in their order: neutral and absorbing operands before powers. -/
def reduce (op : BinaryOp) (left right : Expr) : Reduction :=
  match identity? op left right with
  | some e => .settled e
  | none => powerRule op left right

theorem productCount_zero : productCount .zero = 0 := rfl

theorem productCount_one : productCount .one = 0 := rfl

theorem identity?_productCount {op : BinaryOp} {left right e : Expr}
    (h : identity? op left right = some e) :
    productCount e ≤ productCount (.bin op left right) := by
  unfold identity? at h
  simp only [productCount]
  cases op <;> simp only at h <;> (repeat' split at h) <;>
    simp only [Option.some.injEq, reduceCtorEq] at h <;> subst h <;>
    (try simp only [productCount_zero, productCount_one]) <;> omega

theorem powerForm?_productCount {e a : Expr} {x : String} (h : powerForm? e = some (x, a)) :
    productCount a = productCount e := by
  unfold powerForm? at h
  split at h
  · cases h; rfl
  · cases h; simp [productCount, BinaryOp.isFactoring]
  · cases h

theorem overVariable?_productCount {e c : Expr} {x : String}
    (h : overVariable? e = some (c, x)) : productCount e = 1 + productCount c := by
  unfold overVariable? at h
  split at h
  · cases h; simp [productCount, BinaryOp.isFactoring]
  · cases h

theorem commonBase?_productCount {left right a b : Expr} {x : String}
    (h : commonBase? left right = some (x, a, b)) :
    productCount a = productCount left ∧ productCount b = productCount right := by
  unfold commonBase? at h
  split at h
  · next hl hr =>
    split at h
    · cases h; exact ⟨powerForm?_productCount hl, powerForm?_productCount hr⟩
    · cases h
  · cases h

theorem timesQuotient?_productCount {factor other e : Expr}
    (h : timesQuotient? factor other = some e) :
    productCount e < 1 + productCount factor + productCount other := by
  unfold timesQuotient? at h
  split at h
  · cases h
  · next c x hq =>
    have hother := overVariable?_productCount hq
    split at h
    · next y a hp =>
      have hfactor := powerForm?_productCount hp
      split at h
      · cases h
        simp only [productCount, BinaryOp.isFactoring, productCount_one, Bool.toNat_true,
          Bool.toNat_false]
        omega
      · cases h
    · split at h
      · split at h
        · cases h
          simp only [productCount, BinaryOp.isFactoring, Bool.toNat_true]
          omega
        · cases h
      · cases h

theorem cancelled?_productCount {left right e : Expr} (h : cancelled? left right = some e) :
    productCount e ≤ productCount left := by
  unfold cancelled? at h
  split at h
  · split at h
    · cases h; simp only [productCount]; omega
    · split at h
      · cases h; simp only [productCount]; omega
      · cases h
  · cases h

/-- A rule never adds products or quotients. -/
theorem reduce_settled_productCount {op : BinaryOp} {left right e : Expr}
    (h : reduce op left right = .settled e) :
    productCount e ≤ productCount (.bin op left right) := by
  unfold reduce at h
  split at h
  · next hi => cases h; exact identity?_productCount hi
  · unfold powerRule at h
    split at h
    · split at h
      · cases h
      · split at h
        · cases h
        · split at h <;> cases h
    · split at h
      · next hc =>
        cases h
        have := cancelled?_productCount hc
        simp only [productCount]
        omega
      · split at h <;> cases h
    · cases h

/-- Powers of one variable that are put together are no product or quotient any more. -/
theorem power_productCount {op collected : BinaryOp} {left right a b : Expr} {x : String}
    (factoring : op.isFactoring = true) (plain : collected.isFactoring = false)
    (h : commonBase? left right = some (x, a, b)) :
    productCount (.bin .pow (.var x) (.bin collected a b)) < productCount (.bin op left right) := by
  have power : BinaryOp.pow.isFactoring = false := rfl
  have := commonBase?_productCount h
  simp only [productCount, factoring, plain, power, Bool.toNat_true, Bool.toNat_false]
  omega

/-- A tree that is to be simplified again has fewer products and quotients. -/
theorem reduce_again_productCount {op : BinaryOp} {left right e : Expr}
    (h : reduce op left right = .again e) :
    productCount e < productCount (.bin op left right) := by
  unfold reduce at h
  split at h
  · cases h
  · unfold powerRule at h
    split at h
    · split at h
      · next hq =>
        cases h
        have := timesQuotient?_productCount hq
        simpa [productCount, BinaryOp.isFactoring] using this
      · split at h
        · next hq =>
          cases h
          have := timesQuotient?_productCount hq
          simp only [productCount, BinaryOp.isFactoring, Bool.toNat_true]
          omega
        · split at h
          · next hb =>
            cases h
            exact power_productCount rfl rfl hb
          · cases h
    · split at h
      · cases h
      · split at h
        · next hb =>
          cases h
          exact power_productCount rfl rfl hb
        · cases h
    · cases h

end Expr

end Formula
