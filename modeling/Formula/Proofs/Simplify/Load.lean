import Formula.Proofs.Decimal.Text
import Formula.Proofs.Simplify.Rewrites

/-!
The load of an expression. Simplifying makes an expression lighter or else leaves the number of its
negations and the places of its powers alone, so an expression that is equal to its simplification up
to the order of operands has lost nothing on the way.
-/

set_option autoImplicit false

namespace Formula.Expr

open Decimal (isBelowZero)

/-- The weight of an expression, its negations, and how often a negation lies in the base of a
power. -/
structure Load where
  weight : Nat
  negations : Nat
  inBases : Nat
  deriving DecidableEq

namespace Load

def add (a b : Load) : Load :=
  ⟨a.weight + b.weight, a.negations + b.negations, a.inBases + b.inBases⟩

def binary (op : BinaryOp) (a b : Load) : Load :=
  ⟨1 + a.weight + b.weight, a.negations + b.negations,
    (if op = .pow then a.negations else 0) + a.inBases + b.inBases⟩

def negation (a : Load) : Load := ⟨1 + a.weight, 1 + a.negations, a.inBases⟩

def call (a : Load) : Load := ⟨3 + a.weight, a.negations, a.inBases⟩

/-- A load has less weight than another one, or is the same. -/
def Lighter (a b : Load) : Prop := a.weight < b.weight ∨ a = b

theorem Lighter.refl (a : Load) : Lighter a a := .inr rfl

theorem Lighter.trans {a b c : Load} (first : Lighter a b) (second : Lighter b c) :
    Lighter a c := by
  rcases first with less | rfl
  · rcases second with less' | rfl
    · exact .inl (Nat.lt_trans less less')
    · exact .inl less
  · exact second

theorem Lighter.weight_le {a b : Load} (lighter : Lighter a b) : a.weight ≤ b.weight := by
  rcases lighter with less | rfl
  · exact Nat.le_of_lt less
  · exact Nat.le_refl _

theorem Lighter.add {a a' b b' : Load} (first : Lighter a' a) (second : Lighter b' b) :
    Lighter (a'.add b') (a.add b) := by
  rcases first with less | rfl
  · have le := second.weight_le
    exact .inl (by simp only [Load.add]; omega)
  · rcases second with less | rfl
    · exact .inl (by simp only [Load.add]; omega)
    · exact .refl _

theorem Lighter.binary (op : BinaryOp) {a a' b b' : Load} (first : Lighter a' a)
    (second : Lighter b' b) : Lighter (.binary op a' b') (.binary op a b) := by
  rcases first with less | rfl
  · have le := second.weight_le
    exact .inl (by simp only [Load.binary]; omega)
  · rcases second with less | rfl
    · exact .inl (by simp only [Load.binary]; omega)
    · exact .refl _

theorem Lighter.negation {a a' : Load} (operand : Lighter a' a) :
    Lighter a'.negation a.negation := by
  rcases operand with less | rfl
  · exact .inl (by simp only [Load.negation]; omega)
  · exact .refl _

theorem Lighter.call {a a' : Load} (arguments : Lighter a' a) : Lighter a'.call a.call := by
  rcases arguments with less | rfl
  · exact .inl (by simp only [Load.call]; omega)
  · exact .refl _

end Load

/-- The load of a constant. -/
def constantLoad (value : Float) : Load := if isBelowZero value then ⟨2, 1, 0⟩ else ⟨1, 0, 0⟩

mutual

def load : Expr → Load
  | .const value => constantLoad value
  | .var _ => ⟨3, 0, 0⟩
  | .bin op left right => .binary op (load left) (load right)
  | .neg operand => (load operand).negation
  | .call _ arguments => (loadAll arguments).call

def loadAll : List Expr → Load
  | [] => ⟨0, 0, 0⟩
  | e :: rest => (load e).add (loadAll rest)

end

attribute [simp] load loadAll

theorem weight_constantLoad (value : Float) :
    0 < (constantLoad value).weight ∧ (constantLoad value).weight ≤ 2 := by
  unfold constantLoad
  split <;> exact ⟨by decide, by decide⟩

theorem weight_pos (e : Expr) : 0 < (load e).weight := by
  cases e with
  | const value => exact (weight_constantLoad value).1
  | var name => exact Nat.succ_pos 2
  | bin op left right => simp only [load, Load.binary]; omega
  | neg operand => simp only [load, Load.negation]; omega
  | call name arguments => simp only [load, Load.call]; omega

theorem load_one : load .one = ⟨1, 0, 0⟩ := by
  have plain : isBelowZero 1.0 = false := by decide
  simp only [one, load, constantLoad, plain, Bool.false_eq_true, ↓reduceIte]

theorem weight_child_lt {e part : Expr} (inside : part ∈ e.children) :
    (load part).weight < (load e).weight := by
  cases e with
  | const value => cases inside
  | var name => cases inside
  | bin op left right =>
      have first := weight_pos left
      have second := weight_pos right
      simp only [children, List.mem_cons, List.not_mem_nil, or_false] at inside
      rcases inside with rfl | rfl
      · simp only [load, Load.binary]; omega
      · simp only [load, Load.binary]; omega
  | neg operand =>
      simp only [children, List.mem_singleton] at inside
      subst inside
      simp only [load, Load.negation]; omega
  | call name arguments =>
      have within : ∀ as : List Expr, part ∈ as → (load part).weight ≤ (loadAll as).weight := by
        intro as among
        induction as with
        | nil => cases among
        | cons a rest ih =>
            simp only [loadAll, Load.add]
            rcases List.mem_cons.1 among with rfl | more
            · omega
            · have le := ih more
              omega
      have le := within arguments inside
      simp only [load, Load.call]; omega

/-! ### Steps -/

section

variable {strict : Bool} {e s : Expr}

theorem weight_settle_lt {op : BinaryOp} {left right : Expr}
    (settled : nextBinary strict op left right = .settle e) :
    (load e).weight < (load (.bin op left right)).weight := by
  have first := weight_pos left
  have second := weight_pos right
  simp only [load, Load.binary]
  rcases nextBinary_settle_cases settled with ⟨value, rfl⟩ | rfl | rfl | inside
  · have constant := (weight_constantLoad value).2
    simp only [load]
    omega
  · omega
  · omega
  · have part := weight_child_lt inside
    omega

theorem load_swap {op : BinaryOp} (plain : op ≠ .pow) (left right : Expr) :
    load (.bin op left right) = load (.bin op right left) := by
  simp only [load, Load.binary, plain, ↓reduceIte, Load.mk.injEq]
  exact ⟨by omega, by omega, by omega⟩

theorem PowerOf.lighter_power {x : String} {left right a b : Expr} {op combining : BinaryOp}
    (plain : op ≠ .pow) (plain' : combining ≠ .pow) (first : PowerOf x left a)
    (second : PowerOf x right b) :
    Load.Lighter (load (.bin .pow (.var x) (.bin combining a b))) (load (.bin op left right)) := by
  cases first with
  | itself =>
      cases second with
      | itself =>
          right
          simp [load, Load.binary, load_one, plain, plain']
      | power =>
          left
          simp only [load, Load.binary, load_one]
          omega
  | power =>
      left
      cases second with
      | itself =>
          simp only [load, Load.binary, load_one]
          omega
      | power =>
          simp only [load, Load.binary]
          omega

theorem PowerOf.lighter_product {x : String} {factor a : Expr} (c : Expr)
    (form : PowerOf x factor a) :
    Load.Lighter (load (.bin .mul c (.bin .pow (.var x) (.bin .sub a .one))))
      (load (.bin .mul factor (.bin .div c (.var x)))) := by
  cases form with
  | itself =>
      right
      simp [load, Load.binary, load_one]
      omega
  | power =>
      left
      simp only [load, Load.binary, load_one]
      omega

theorem lighter_quotient (x : String) (value : Float) (c : Expr) :
    Load.Lighter (load (.bin .div (.const value) (.var x)))
      (load (.bin .mul (.const value) (.bin .div c (.var x)))) := by
  left
  simp only [load, Load.binary]
  omega

theorem Regroups.lighter {op : BinaryOp} {left right : Expr} (regroups : Regroups op left right e) :
    Load.Lighter (load e) (load (.bin op left right)) := by
  cases regroups with
  | timesQuotient c form => exact form.lighter_product c
  | quotientTimes c form =>
      rw [load_swap (by decide) (.bin .div c _)]
      exact form.lighter_product c
  | timesReciprocal x value c one => exact lighter_quotient x value c
  | reciprocalTimes x value c one =>
      rw [load_swap (by decide) (.bin .div c _)]
      exact lighter_quotient x value c
  | product first second => exact first.lighter_power (by decide) (by decide) second
  | quotient first second => exact first.lighter_power (by decide) (by decide) second

theorem lighter_negated? {a : Expr} (gone : negated? a = some e) :
    Load.Lighter (load e) (load (.neg a)) := by
  rcases negated?_cases gone with ⟨value, rfl, rfl⟩ | rfl
  · have before := weight_constantLoad value
    simp only [load, Load.negation]
    unfold constantLoad
    cases isBelowZero (-value) <;> cases isBelowZero value
    · exact .inl (by decide)
    · exact .inl (by decide)
    · exact .inr rfl
    · exact .inl (by decide)
  · left
    simp only [load, Load.negation]
    omega

theorem lighter_loadAll (parts : List (Expr × Expr))
    (each : ∀ p ∈ parts, Load.Lighter (load p.2) (load p.1)) :
    Load.Lighter (loadAll (parts.map Prod.snd)) (loadAll (parts.map Prod.fst)) := by
  induction parts with
  | nil => exact .refl _
  | cons p rest ih =>
      apply (each p List.mem_cons_self).add
      apply ih
      intro q inside
      exact each q (List.mem_cons_of_mem p inside)

theorem lighter_of_rewrites (rewrites : Rewrites strict e s) :
    Load.Lighter (load s) (load e) := by
  induction rewrites with
  | const value => exact .refl _
  | var name => exact .refl _
  | negKept _ _ ih => exact ih.negation
  | negGone _ gone ih => exact (lighter_negated? gone).trans ih.negation
  | callKept name parts _ _ ih => exact (lighter_loadAll parts ih).call
  | callFolded name parts _ folded ih =>
      obtain ⟨value, rfl⟩ := foldedCall?_cases folded
      have constant := (weight_constantLoad value).2
      left
      simp only [load, Load.call]
      omega
  | binKept _ _ _ first second => exact first.binary _ second
  | binSettled _ _ settled first second =>
      exact (Load.Lighter.trans (.inl (weight_settle_lt settled)) (first.binary _ second))
  | binAgain _ _ again _ first second ih =>
      exact ih.trans ((nextBinary_again_cases again).lighter.trans (first.binary _ second))

end

end Formula.Expr
