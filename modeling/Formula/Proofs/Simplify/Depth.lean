import Mathlib.Control.Monad.Basic
import Formula.Parse
import Formula.Proofs.Simplify.NormalForm

/-!
The depth of simplified expressions. The limit of a parse bounds the depth of what a text writes, and
what is built from powers of a variable can be deeper than that: `x ^ a * (c / x)` becomes
`c * x ^ (a - 1)`. Every such step takes a quotient away, and it puts the new nodes into an exponent of
a variable. So the height and the number of quotients together do not grow, nor does the height above
those exponents.
-/

set_option autoImplicit false

namespace Formula

def BinaryOp.isQuotient : BinaryOp → Bool
  | .div => true
  | _ => false

namespace Expr

/-! ### Measures -/

mutual

def quotientCount : Expr → Nat
  | .const _ | .var _ => 0
  | .bin op left right => op.isQuotient.toNat + quotientCount left + quotientCount right
  | .neg operand => quotientCount operand
  | .call _ arguments => totalQuotients arguments

def totalQuotients : List Expr → Nat
  | [] => 0
  | e :: rest => quotientCount e + totalQuotients rest

end

attribute [simp] quotientCount totalQuotients

/-- An operation with this operator and this left operand is a power of a variable. -/
def isVariablePower : BinaryOp → Expr → Bool
  | .pow, .var _ => true
  | _, _ => false

mutual

/-- The height if the exponents of variables count as constants, whatever they are. -/
def outerHeight : Expr → Nat
  | .const _ | .var _ => 1
  | .bin op left right =>
    if isVariablePower op left then 2 else 1 + max (outerHeight left) (outerHeight right)
  | .neg operand => 1 + outerHeight operand
  | .call _ arguments => 1 + outerHeightAll arguments

def outerHeightAll : List Expr → Nat
  | [] => 0
  | e :: rest => max (outerHeight e) (outerHeightAll rest)

end

attribute [simp] outerHeight outerHeightAll

/-- A node that is no power of a variable, or one whose exponent is a constant or a variable. -/
def HasShallowPower : Expr → Prop
  | .bin .pow (.var _) a => height a = 1
  | _ => True

theorem outerHeight_pos (e : Expr) : 0 < outerHeight e := by
  cases e <;> simp only [outerHeight] <;> (try split) <;> omega

theorem outerHeight_le_height (e : Expr) : outerHeight e ≤ height e := by
  induction e using Expr.induction with
  | const value => exact Nat.le_refl _
  | var name => exact Nat.le_refl _
  | neg a ih =>
      simp only [outerHeight, height]
      omega
  | call name arguments ih =>
      have each : outerHeightAll arguments ≤ heightAll arguments := by
        induction arguments with
        | nil => exact Nat.le_refl _
        | cons a rest more =>
            have first := ih a List.mem_cons_self
            have others := more fun b inside => ih b (List.mem_cons_of_mem a inside)
            simp only [outerHeightAll, heightAll]
            omega
      simp only [outerHeight, height]
      omega
  | bin op left right first second =>
      have positive := height_pos left
      simp only [outerHeight, height]
      split <;> omega

/-- With shallow powers only, the outer height is all of the height. -/
theorem height_eq_outerHeight (e : Expr) (shallow : e.Everywhere HasShallowPower) :
    height e = outerHeight e := by
  induction e using Expr.induction with
  | const value => rfl
  | var name => rfl
  | neg a ih => rw [height, outerHeight, ih shallow.operand]
  | call name arguments ih =>
      have each : heightAll arguments = outerHeightAll arguments := by
        have parts (a : Expr) (inside : a ∈ arguments) := ih a inside (shallow.argument inside)
        clear ih shallow
        induction arguments with
        | nil => rfl
        | cons a rest more =>
            rw [heightAll, outerHeightAll, parts a List.mem_cons_self,
              more fun b inside => parts b (List.mem_cons_of_mem a inside)]
      rw [height, outerHeight, each]
  | bin op left right first second =>
      rw [outerHeight]
      split
      · next power =>
          unfold isVariablePower at power
          split at power
          · have exponent : height right = 1 := shallow.root
            simp only [height, exponent, Nat.max_self]
          · cases power
      · rw [height, first shallow.left, second shallow.right]

/-! ### Steps -/

/-- An expression has no more quotients than another one, no more height if every quotient it has less
allows for one level, and no more outer height. -/
structure NoDeeper (e e' : Expr) : Prop where
  quotients : quotientCount e' ≤ quotientCount e
  whole : height e' + quotientCount e' ≤ height e + quotientCount e
  outer : outerHeight e' ≤ outerHeight e

section

variable {op : BinaryOp} {left left' right right' e e' e'' : Expr}

theorem NoDeeper.refl (e : Expr) : NoDeeper e e := ⟨Nat.le_refl _, Nat.le_refl _, Nat.le_refl _⟩

theorem NoDeeper.trans (first : NoDeeper e e') (second : NoDeeper e' e'') : NoDeeper e e'' :=
  ⟨Nat.le_trans second.quotients first.quotients, Nat.le_trans second.whole first.whole,
    Nat.le_trans second.outer first.outer⟩

theorem noDeeper_const (e : Expr) (value : Float) : NoDeeper e (.const value) := by
  refine ⟨Nat.zero_le _, ?_, outerHeight_pos e⟩
  have positive := height_pos e
  simp only [height, quotientCount]
  omega

theorem NoDeeper.neg (operand : NoDeeper e e') : NoDeeper (.neg e) (.neg e') := by
  obtain ⟨quotients, whole, outer⟩ := operand
  constructor <;> simp only [quotientCount, height, outerHeight] <;> omega

theorem noDeeper_operand (e : Expr) : NoDeeper (.neg e) e := by
  constructor <;> simp only [quotientCount, height, outerHeight] <;> omega

theorem NoDeeper.call (name : String) (parts : List (Expr × Expr))
    (each : ∀ p ∈ parts, NoDeeper p.1 p.2) :
    NoDeeper (.call name (parts.map Prod.fst)) (.call name (parts.map Prod.snd)) := by
  induction parts with
  | nil => exact .refl _
  | cons p rest ih =>
      obtain ⟨quotients, whole, outer⟩ := each p List.mem_cons_self
      obtain ⟨quotients', whole', outer'⟩ := ih fun q inside => each q (List.mem_cons_of_mem p inside)
      simp only [quotientCount, height, outerHeight] at quotients' whole' outer'
      constructor <;> simp only [List.map_cons, quotientCount, totalQuotients, height, heightAll,
        outerHeight, outerHeightAll] <;> omega

theorem NoDeeper.bin (op : BinaryOp) (first : NoDeeper left left') (second : NoDeeper right right')
    (power : isVariablePower op left = true → isVariablePower op left' = true) :
    NoDeeper (.bin op left right) (.bin op left' right') := by
  obtain ⟨quotients, whole, outer⟩ := first
  obtain ⟨quotients', whole', outer'⟩ := second
  refine ⟨?_, ?_, ?_⟩
  · simp only [quotientCount]
    omega
  · simp only [height, quotientCount]
    omega
  · have positive := outerHeight_pos left
    simp only [outerHeight]
    split
    · split <;> omega
    · next others =>
        rw [if_neg (mt power others)]
        omega

theorem noDeeper_left (op : BinaryOp) (left right : Expr) : NoDeeper (.bin op left right) left := by
  refine ⟨?_, ?_, ?_⟩
  · simp only [quotientCount]
    omega
  · simp only [height, quotientCount]
    omega
  · simp only [outerHeight]
    split
    · next power =>
        unfold isVariablePower at power
        split at power
        · exact Nat.le_succ 1
        · cases power
    · omega

theorem noDeeper_right (other : isVariablePower op left = false) :
    NoDeeper (.bin op left right) right := by
  constructor <;> simp only [quotientCount, height, outerHeight, other, Bool.false_eq_true,
    ↓reduceIte] <;> omega

theorem Settles.noDeeper (settles : Settles op left right e) : NoDeeper (.bin op left right) e := by
  cases settles with
  | zeroMul | mulZero | zeroDiv | powZero | onePow | zeroPow => exact noDeeper_const _ _
  | addZero | subZero | mulOne | divOne | powOne => exact noDeeper_left _ _ _
  | zeroAdd | oneMul => exact noDeeper_right rfl
  | mulDiv k x => exact (noDeeper_left _ _ _).trans (noDeeper_left _ _ _)
  | mulDivLeft x k => exact (noDeeper_left _ _ _).trans (noDeeper_right rfl)

/-- A power of a variable has the quotients of its exponent and is one level higher, if it is not the
variable itself. -/
theorem PowerOf.measures {x : String} {f a : Expr} (power : PowerOf x f a) :
    quotientCount f = quotientCount a ∧
      (height f = height a + 1 ∨ height f = 1 ∧ height a = 1) := by
  cases power with
  | itself => exact ⟨rfl, .inr ⟨rfl, rfl⟩⟩
  | power =>
      have positive := height_pos a
      refine ⟨?_, .inl ?_⟩
      · simp only [quotientCount, BinaryOp.isQuotient, Bool.toNat_false, Nat.zero_add]
      · simp only [height]
        omega

/-- A power of a variable next to a quotient by it takes the quotient away. -/
theorem PowerOf.noDeeper_timesQuotient {x : String} {f a : Expr} (power : PowerOf x f a) (c : Expr) :
    NoDeeper (.bin .mul f (.bin .div c (.var x)))
        (.bin .mul c (.bin .pow (.var x) (.bin .sub a .one))) ∧
      NoDeeper (.bin .mul (.bin .div c (.var x)) f)
        (.bin .mul c (.bin .pow (.var x) (.bin .sub a .one))) := by
  obtain ⟨quotients, heights⟩ := power.measures
  have positive := height_pos c
  have positive' := outerHeight_pos c
  refine ⟨⟨?_, ?_, ?_⟩, ⟨?_, ?_, ?_⟩⟩ <;>
    simp [quotientCount, BinaryOp.isQuotient, height, outerHeight, isVariablePower, Expr.one] <;>
    omega

/-- What a rule over powers of one variable builds is not deeper, but for the square of a variable. -/
theorem Regroups.noDeeper (regroups : Regroups op left right e) :
    NoDeeper (.bin op left right) e ∨
      ∃ x, op = .mul ∧ left = .var x ∧ right = .var x ∧
        e = .bin .pow (.var x) (.bin .add .one .one) := by
  cases regroups with
  | timesQuotient c power => exact .inl (power.noDeeper_timesQuotient c).1
  | quotientTimes c power => exact .inl (power.noDeeper_timesQuotient c).2
  | timesReciprocal x value c one =>
      refine .inl ⟨?_, ?_, ?_⟩ <;>
        simp [quotientCount, BinaryOp.isQuotient, height, outerHeight, isVariablePower] <;> omega
  | reciprocalTimes x value c one =>
      refine .inl ⟨?_, ?_, ?_⟩ <;>
        simp [quotientCount, BinaryOp.isQuotient, height, outerHeight, isVariablePower] <;> omega
  | @product x _ _ a b first second =>
      cases first with
      | itself =>
          cases second with
          | itself => exact .inr ⟨x, rfl, rfl, rfl, rfl⟩
          | power =>
              refine .inl ⟨?_, ?_, ?_⟩ <;>
                simp [quotientCount, BinaryOp.isQuotient, height, outerHeight, isVariablePower,
                  Expr.one]
      | power =>
          obtain ⟨quotients, heights⟩ := second.measures
          refine .inl ⟨?_, ?_, ?_⟩ <;>
            simp [quotientCount, BinaryOp.isQuotient, height, outerHeight, isVariablePower] <;> omega
  | quotient first second =>
      obtain ⟨quotients, heights⟩ := first.measures
      obtain ⟨quotients', heights'⟩ := second.measures
      have positive := outerHeight_pos left
      refine .inl ⟨?_, ?_, ?_⟩ <;>
        simp [quotientCount, BinaryOp.isQuotient, height, outerHeight, isVariablePower] <;> omega

/-! ### Runs -/

variable {strict : Bool}

/-- A square is written as a power with the constant exponent two. -/
theorem eq_of_rewrites_square {x : String} {s : Expr}
    (rewrites : Rewrites strict (.bin .pow (.var x) (.bin .add .one .one)) s) :
    s = .bin .pow (.var x) (.const 2.0) := by
  have sum {two : Expr} (run : Rewrites strict (.bin .add .one .one) two) : two = .const 2.0 := by
    have value : nextBinary strict .add .one .one = .settle (.const 2.0) := by cases strict <;> rfl
    cases run with
    | binKept first second kept =>
        cases first
        cases second
        cases value.symm.trans kept
    | binSettled first second settled =>
        cases first
        cases second
        cases value.symm.trans settled
        rfl
    | binAgain first second again =>
        cases first
        cases second
        cases value.symm.trans again
  have kept : nextBinary strict .pow (.var x) (.const 2.0) = .keep := rfl
  cases rewrites with
  | binKept first second =>
      cases first
      rw [sum second]
  | binSettled first second settled =>
      cases first
      cases sum second
      cases kept.symm.trans settled
  | binAgain first second again =>
      cases first
      cases sum second
      cases kept.symm.trans again

/-- What is simplified to the base of a variable's power is that variable. -/
theorem Rewrites.variablePower (run : Rewrites strict left left')
    (power : isVariablePower op left = true) : isVariablePower op left' = true := by
  unfold Expr.isVariablePower at power
  split at power
  · cases run
    rfl
  · cases power

/-- Simplifying makes no expression deeper, but for the quotients it takes away and for exponents of
variables. -/
theorem noDeeper_of_rewrites {s : Expr} (rewrites : Rewrites strict e s) : NoDeeper e s := by
  induction rewrites with
  | const value => exact .refl _
  | var name => exact .refl _
  | negKept _ _ ih => exact ih.neg
  | negGone _ gone ih =>
      rcases negated?_cases gone with ⟨value, rfl, rfl⟩ | rfl
      · exact noDeeper_const _ _
      · exact ih.neg.trans ((noDeeper_operand _).trans (noDeeper_operand _))
  | callKept name parts _ _ ih => exact .call name parts ih
  | callFolded name parts _ folded _ =>
      obtain ⟨value, rfl⟩ := foldedCall?_cases folded
      exact noDeeper_const _ _
  | binKept left right _ first second => exact .bin _ first second left.variablePower
  | binSettled left right settled first second =>
      refine (NoDeeper.bin _ first second left.variablePower).trans ?_
      rcases settles_of_nextBinary settled with ⟨value, -, rfl⟩ | settles
      · exact noDeeper_const _ _
      · exact settles.noDeeper
  | binAgain left right again more first second ih =>
      refine (NoDeeper.bin _ first second left.variablePower).trans ?_
      rcases (nextBinary_again_cases again).noDeeper with kept | ⟨x, rfl, rfl, rfl, rfl⟩
      · exact kept.trans ih
      · -- The power `x ^ (1 + 1)` is deeper than the product, and its simplification is not.
        rw [eq_of_rewrites_square more]
        exact ⟨Nat.le_refl _, Nat.le_refl _, Nat.le_refl _⟩

end

/-- The depth of a parsed expression exceeds the limit by no more than the number of quotients that
simplifying took away from the expression that the text writes, and it does so only in exponents of
variables: no other node is too deep, and with constants and variables for these exponents nothing
is. -/
theorem parse_depth_le {strict : Bool} {level : Level} {limit : Int} {text : String} {t : Expr}
    (parsed : (parse strict level limit text).value = .ok t) :
    (∃ e, parseRaw (some limit) text = .ok e ∧ (e.depth : Int) ≤ limit ∧
        quotientCount t ≤ quotientCount e ∧
        (t.depth : Int) + quotientCount t ≤ limit + quotientCount e) ∧
      (outerHeight t : Int) ≤ limit ∧
      (t.Everywhere HasShallowPower → (t.depth : Int) ≤ limit) := by
  obtain ⟨e, raw, checked, rfl⟩ := parse_eq_ok.1 parsed
  obtain ⟨quotients, whole, outer⟩ := noDeeper_of_rewrites (rewrites_simplify strict level e)
  have within : (e.depth : Int) ≤ limit := by
    unfold checkDepth at checked
    split at checked
    · cases checked
    · omega
  have deep := depth_eq_height e
  have below := outerHeight_le_height e
  rw [depth_eq_height (simplify strict level e).tree]
  refine ⟨⟨e, raw, within, quotients, ?_⟩, ?_, fun shallow => ?_⟩
  · omega
  · omega
  · rw [height_eq_outerHeight _ shallow]
    omega

/-- The text `x^y * (2/x)` has depth 3 as it is written and is simplified to `2 * x ^ (y - 1)`. -/
theorem parse_product :
    let deeper : Expr := .bin .mul (.const 2.0) (.bin .pow (.var "x") (.bin .sub (.var "y") .one))
    parseRaw (some 3) "x^y * (2/x)" = .ok (.bin .mul (.bin .pow (.var "x") (.var "y"))
      (.bin .div (.const 2.0) (.var "x"))) ∧
      (parse false .silent 3 "x^y * (2/x)").value = .ok deeper := by
  intro deeper
  let written : Expr := .bin .mul (.bin .pow (.var "x") (.var "y"))
    (.bin .div (.const 2.0) (.var "x"))
  have scanned : Token.scan "x^y * (2/x)" = .ok [⟨.identifier "x", 0⟩, ⟨.operator .pow, 1⟩,
      ⟨.identifier "y", 2⟩, ⟨.operator .mul, 4⟩, ⟨.leftParen, 6⟩, ⟨.number "2", 7⟩,
      ⟨.operator .div, 8⟩, ⟨.identifier "x", 9⟩, ⟨.rightParen, 10⟩] := by
    decide +kernel
  have raw : parseRaw (some 3) "x^y * (2/x)" = .ok written := by
    rw [parseRaw, tokens, scanned]
    rfl
  have shallow : checkDepth 3 written = .ok () := by
    rw [checkDepth, depth_eq_height]
    rfl
  have power : (bin .pow (.var "x") (.var "y")).Everywhere (Stands false) := by
    simp only [everywhere_bin, everywhere_var]
    exact ⟨rfl, trivial, trivial⟩
  have quotient : (bin .div (.const 2.0) (.var "x")).Everywhere (Stands false) := by
    simp only [everywhere_bin, everywhere_const, everywhere_var]
    exact ⟨rfl, trivial, trivial⟩
  have kept : deeper.Everywhere (Stands false) := by
    simp only [deeper, Expr.one, everywhere_bin, everywhere_const, everywhere_var]
    exact ⟨rfl, trivial, rfl, trivial, rfl, trivial, trivial⟩
  refine ⟨raw, parse_eq_ok.2 ⟨written, raw, shallow, ?_⟩⟩
  rw [tree_simplify_bin, (simplify_of_stands .silent _ power).1,
    (simplify_of_stands .silent _ quotient).1]
  exact (simplify_of_stands .silent _ kept).1.symm

/-- Of the text `x^y * (2/x)` the bounds allow for one level above the limit. -/
theorem parse_depth_le_product :
    let deeper : Expr := .bin .mul (.const 2.0) (.bin .pow (.var "x") (.bin .sub (.var "y") .one))
    (parse false .silent 3 "x^y * (2/x)").value = .ok deeper ∧ (outerHeight deeper : Int) ≤ 3 ∧
      ∃ e, parseRaw (some 3) "x^y * (2/x)" = .ok e ∧ (e.depth : Int) ≤ 3 ∧
        quotientCount deeper ≤ quotientCount e ∧
        (deeper.depth : Int) + quotientCount deeper ≤ 3 + quotientCount e := by
  have parsed := parse_product.2
  exact ⟨parsed, (parse_depth_le parsed).2.1, (parse_depth_le parsed).1⟩

/-- The text `x^y * (2/x)` is parsed with the limit 3, and the result has depth 4. -/
theorem parse_deeper_product :
    ∃ t, (parse false .silent 3 "x^y * (2/x)").value = .ok t ∧ ¬ (t.depth : Int) ≤ 3 := by
  refine ⟨_, parse_product.2, ?_⟩
  rw [depth_eq_height]
  decide

end Expr

end Formula
