import Mathlib.Data.Set.Card
import Formula.Expr.Equality
import Formula.Expr.Traversal
import Formula.Proofs.Decimal.Signs

/-!
Equality is an equivalence, and hashes respect it. Both are said of a relation between trees that is
open in what it asks of constants: matched trees differ at most in the order of the operands of sums
and products. Counting different expressions by their hashes counts the classes of equal ones.
-/

set_option autoImplicit false

namespace Formula

open Decimal (positiveZero)

/-! ### Constants -/

theorem zero_beq_zero : ((0.0 : Float) == 0.0) = true := rfl

theorem positiveZero_of_beq {a : Float} (zero : (a == 0.0) = true) : positiveZero a = 0.0 := by
  rw [positiveZero, if_pos zero]

theorem positiveZero_of_not_beq {a : Float} (other : ¬ (a == 0.0) = true) :
    positiveZero a = a := by
  rw [positiveZero, if_neg other]

theorem positiveZero_beq_zero (a : Float) : (positiveZero a == 0.0) = (a == 0.0) := by
  by_cases zero : (a == 0.0) = true
  · rw [positiveZero_of_beq zero, zero, zero_beq_zero]
  · rw [positiveZero_of_not_beq zero]

/-- Constants are equal if they are the same double once a zero has no sign. -/
theorem sameConstant_iff (a b : Float) :
    sameConstant a b = true ↔ positiveZero a = positiveZero b := by
  rw [sameConstant, Bool.or_eq_true, Bool.and_eq_true]
  constructor
  · rintro (equal | ⟨first, second⟩)
    · have signless : positiveZero 0.0 = positiveZero (-0.0) := by
        rw [positiveZero_of_beq zero_beq_zero, positiveZero_of_beq (by decide)]
      obtain ⟨-, -, rfl | ⟨rfl, rfl⟩ | ⟨rfl, rfl⟩⟩ := Float.beq_iff_ne_nan_and_eq.1 equal
      · rfl
      · exact signless
      · exact signless.symm
    · rw [Float.isNaN_eq_decide_eq_nan, decide_eq_true_eq] at first second
      rw [first, second]
  · intro equal
    have zeros : (a == 0.0) = (b == 0.0) := by
      rw [← positiveZero_beq_zero a, equal, positiveZero_beq_zero]
    by_cases zero : (a == 0.0) = true
    · left
      rcases Decimal.eq_zero_of_beq zero with rfl | rfl <;>
        rcases Decimal.eq_zero_of_beq (zeros ▸ zero) with rfl | rfl <;> decide
    · rw [positiveZero_of_not_beq zero, positiveZero_of_not_beq (zeros ▸ zero)] at equal
      subst equal
      by_cases number : (a == a) = true
      · exact .inl number
      · rw [Float.beq_self_iff, not_not] at number
        right
        rw [number]
        decide

namespace Expr

/-! ### Matched trees -/

/-- Two expressions differ at most in the order of the operands of sums and products, and in their
constants as far as a relation allows it. -/
inductive Matches (r : Float → Float → Prop) : Expr → Expr → Prop
  | const {a b : Float} (related : r a b) : Matches r (.const a) (.const b)
  | var (name : String) : Matches r (.var name) (.var name)
  | bin (op : BinaryOp) {left left' right right' : Expr} (first : Matches r left left')
      (second : Matches r right right') : Matches r (.bin op left right) (.bin op left' right')
  | swapped {op : BinaryOp} (commutes : op.commutes = true) {left left' right right' : Expr}
      (first : Matches r left left') (second : Matches r right right') :
      Matches r (.bin op left right) (.bin op right' left')
  | neg {a b : Expr} (operand : Matches r a b) : Matches r (.neg a) (.neg b)
  | call (name : String) {as bs : List Expr} (arguments : List.Forall₂ (Matches r) as bs) :
      Matches r (.call name as) (.call name bs)

/-- Prove a property of matched expressions from that of their parts. -/
theorem Matches.induction {r : Float → Float → Prop} {motive : ∀ e f : Expr, Matches r e f → Prop}
    (const : ∀ {a b : Float} (related : r a b), motive (.const a) (.const b) (.const related))
    (var : ∀ name, motive (.var name) (.var name) (.var name))
    (bin : ∀ op {left left' right right' : Expr} (first : Matches r left left')
      (second : Matches r right right'), motive left left' first → motive right right' second →
      motive (.bin op left right) (.bin op left' right') (.bin op first second))
    (swapped : ∀ {op : BinaryOp} (commutes : op.commutes = true) {left left' right right' : Expr}
      (first : Matches r left left') (second : Matches r right right'),
      motive left left' first → motive right right' second →
      motive (.bin op left right) (.bin op right' left') (.swapped commutes first second))
    (neg : ∀ {a b : Expr} (operand : Matches r a b), motive a b operand →
      motive (.neg a) (.neg b) (.neg operand))
    (call : ∀ name {as bs : List Expr} (arguments : List.Forall₂ (Matches r) as bs),
      List.Forall₂ (fun a b => ∃ matched : Matches r a b, motive a b matched) as bs →
      motive (.call name as) (.call name bs) (.call name arguments))
    {e f : Expr} (matched : Matches r e f) : motive e f matched :=
  Matches.rec (motive_1 := motive)
    (motive_2 := fun as bs _ =>
      List.Forall₂ (fun a b => ∃ matched : Matches r a b, motive a b matched) as bs)
    const var (fun op => bin op) (fun commutes => swapped commutes) neg (fun name => call name)
    .nil (fun head _ first rest => .cons ⟨head, first⟩ rest) matched

/-- Constants that are equal as constants of expressions. -/
def SameConstant (a b : Float) : Prop := sameConstant a b = true

theorem sameAll_iff (as bs : List Expr) :
    sameAll as bs = true ↔ List.Forall₂ (fun a b => same a b = true) as bs := by
  induction as generalizing bs with
  | nil => cases bs <;> simp [sameAll]
  | cons a as ih =>
      cases bs with
      | nil => simp [sameAll]
      | cons b bs => rw [sameAll, Bool.and_eq_true, ih, List.forall₂_cons]

/-- A relation between argument lists may use what is known of the arguments. -/
theorem forall₂_of_members {r t : Expr → Expr → Prop} {as bs : List Expr}
    (related : List.Forall₂ r as bs) (implies : ∀ a ∈ as, ∀ b ∈ bs, r a b → t a b) :
    List.Forall₂ t as bs := by
  rw [List.forall₂_iff_zip] at related ⊢
  refine ⟨related.1, fun {a b} paired => ?_⟩
  obtain ⟨inside, inside'⟩ := List.of_mem_zip paired
  exact implies a inside b inside' (related.2 paired)

theorem matches_of_same (e f : Expr) (equal : same e f = true) : Matches SameConstant e f := by
  induction e using Expr.induction generalizing f with
  | const a =>
      cases f with
      | const b => exact .const equal
      | _ => simp [same] at equal
  | var x =>
      cases f with
      | var y =>
          rw [same, beq_iff_eq] at equal
          rw [equal]
          exact .var y
      | _ => simp [same] at equal
  | bin op left right first second =>
      cases f with
      | bin op' left' right' =>
          simp only [same, Bool.and_eq_true, Bool.or_eq_true, beq_iff_eq] at equal
          obtain ⟨rfl, ⟨straight, straight'⟩ | ⟨commutes, crossed, crossed'⟩⟩ := equal
          · exact .bin op (first left' straight) (second right' straight')
          · exact .swapped commutes (first right' crossed) (second left' crossed')
      | _ => simp [same] at equal
  | neg a ih =>
      cases f with
      | neg b => exact .neg (ih b equal)
      | _ => simp [same] at equal
  | call name as ih =>
      cases f with
      | call name' bs =>
          simp only [same, Bool.and_eq_true, beq_iff_eq, sameAll_iff] at equal
          obtain ⟨rfl, together⟩ := equal
          exact .call name (forall₂_of_members together fun a inside b _ => ih a inside b)
      | _ => simp [same] at equal

theorem same_of_matches {e f : Expr} (matched : Matches SameConstant e f) : same e f = true := by
  induction matched using Matches.induction with
  | const related => exact related
  | var x => exact beq_self_eq_true x
  | bin op _ _ straight straight' =>
      rw [same, straight, straight', beq_self_eq_true, Bool.and_self, Bool.true_or, Bool.and_self]
  | swapped commutes _ _ crossed crossed' =>
      rw [same, commutes, crossed, crossed', beq_self_eq_true, Bool.and_self, Bool.and_self,
        Bool.or_true, Bool.and_self]
  | neg _ operand => exact operand
  | call name _ each =>
      rw [same, beq_self_eq_true, Bool.true_and, sameAll_iff]
      exact each.imp fun a b both => both.2

/-- Two expressions are equal exactly if they match in constants that are equal. -/
theorem same_iff_matches (e f : Expr) : same e f = true ↔ Matches SameConstant e f :=
  ⟨matches_of_same e f, same_of_matches⟩

section

variable {r : Float → Float → Prop}

theorem matches_refl (reflexive : ∀ a, r a a) (e : Expr) : Matches r e e := by
  induction e using Expr.induction with
  | const a => exact .const (reflexive a)
  | var x => exact .var x
  | bin op left right first second => exact .bin op first second
  | neg a ih => exact .neg ih
  | call name as ih => exact .call name (List.forall₂_same.2 ih)

theorem Matches.mono {t : Float → Float → Prop} (implies : ∀ {a b}, r a b → t a b) {e f : Expr}
    (matched : Matches r e f) : Matches t e f := by
  induction matched using Matches.induction with
  | const related => exact .const (implies related)
  | var x => exact .var x
  | bin op _ _ straight straight' => exact .bin op straight straight'
  | swapped commutes _ _ crossed crossed' => exact .swapped commutes crossed crossed'
  | neg _ operand => exact .neg operand
  | call name _ each => exact .call name (each.imp fun a b both => both.2)

theorem Matches.symm (symmetric : ∀ {a b}, r a b → r b a) {e f : Expr} (matched : Matches r e f) :
    Matches r f e := by
  induction matched using Matches.induction with
  | const related => exact .const (symmetric related)
  | var x => exact .var x
  | bin op _ _ straight straight' => exact .bin op straight straight'
  | swapped commutes _ _ crossed crossed' => exact .swapped commutes crossed' crossed
  | neg _ operand => exact .neg operand
  | call name _ each =>
      apply Matches.call name
      apply List.Forall₂.flip
      exact each.imp fun a b both => both.2

theorem forall₂_trans {as bs cs : List Expr}
    (first : List.Forall₂ (fun a b => ∀ c, Matches r b c → Matches r a c) as bs)
    (second : List.Forall₂ (Matches r) bs cs) : List.Forall₂ (Matches r) as cs := by
  induction first generalizing cs with
  | nil => exact second
  | cons head _ ih =>
      cases second with
      | cons next rest => exact .cons (head _ next) (ih rest)

/-- The operands of a sum or a product can be matched straight or crossed twice over, so there are
four ways through the expression in the middle. -/
theorem Matches.trans (transitive : ∀ {a b c}, r a b → r b c → r a c) {e f g : Expr}
    (matched : Matches r e f) (more : Matches r f g) : Matches r e g := by
  induction matched using Matches.induction generalizing g with
  | const related =>
      cases more with
      | const related' => exact .const (transitive related related')
  | var x => exact more
  | bin op _ _ straight straight' =>
      cases more with
      | bin _ next next' => exact .bin op (straight next) (straight' next')
      | swapped commutes next next' => exact .swapped commutes (straight next) (straight' next')
  | swapped commutes _ _ crossed crossed' =>
      cases more with
      | bin _ next next' => exact .swapped commutes (crossed next') (crossed' next)
      | swapped _ next next' => exact .bin _ (crossed next') (crossed' next)
  | neg _ operand =>
      cases more with
      | neg next => exact .neg (operand next)
  | call name _ each =>
      cases more with
      | call _ next =>
          apply Matches.call name
          exact forall₂_trans (each.imp fun a b both c => both.2) next

end

/-! ### Equality -/

theorem same_refl (e : Expr) : same e e = true :=
  same_of_matches (matches_refl (fun a => (sameConstant_iff a a).2 rfl) e)

theorem same_symm {e f : Expr} (equal : same e f = true) : same f e = true := by
  apply same_of_matches
  refine (matches_of_same e f equal).symm fun {a b} related => ?_
  exact (sameConstant_iff b a).2 ((sameConstant_iff a b).1 related).symm

theorem same_trans {e f g : Expr} (equal : same e f = true) (more : same f g = true) :
    same e g = true := by
  apply same_of_matches
  refine (matches_of_same e f equal).trans (fun {a b c} related next => ?_)
    (matches_of_same f g more)
  exact (sameConstant_iff a c).2
    (((sameConstant_iff a b).1 related).trans ((sameConstant_iff b c).1 next))

/-! ### Hashes -/

end Expr

/-- The hashes of numbers that are equal are the same, so both zeros have one. -/
def Hashing.Respects (h : Hashing) : Prop := ∀ a b : Float, (a == b) = true → h.number a = h.number b

theorem Hashing.standard_respects : Hashing.standard.Respects := by
  intro a b equal
  obtain ⟨-, -, rfl | ⟨rfl, rfl⟩ | ⟨rfl, rfl⟩⟩ := Float.beq_iff_ne_nan_and_eq.1 equal
  · rfl
  · rfl
  · rfl

/-- The hash of an operation whose operands keep no order does not depend on their order. -/
theorem Hashing.unordered_swap (h : Hashing) (op : BinaryOp) (a b : UInt64) :
    h.unordered op (min a b) (max a b) = h.unordered op (min b a) (max b a) := by
  change h.unordered op (if a ≤ b then a else b) (if a ≤ b then b else a) =
    h.unordered op (if b ≤ a then b else a) (if b ≤ a then a else b)
  by_cases below : a ≤ b
  · by_cases above : b ≤ a
    · rw [UInt64.le_antisymm below above]
    · simp only [below, above, ↓reduceIte]
  · have above : b ≤ a := (UInt64.le_total a b).resolve_left below
    simp only [below, above, ↓reduceIte]

namespace Expr

variable {h : Hashing}

theorem hash_const (respects : h.Respects) {a b : Float} (equal : SameConstant a b) :
    (Expr.const a).hash h = (Expr.const b).hash h := by
  rw [SameConstant, sameConstant, Bool.or_eq_true, Bool.and_eq_true] at equal
  rcases equal with equal | ⟨first, second⟩
  · have number : a.isNaN = false := by
      rw [Float.isNaN_eq_decide_eq_nan, decide_eq_false_iff_not]
      exact (Float.beq_iff_ne_nan_and_eq.1 equal).1
    have number' : b.isNaN = false := by
      rw [Float.isNaN_eq_decide_eq_nan, decide_eq_false_iff_not]
      exact (Float.beq_iff_ne_nan_and_eq.1 equal).2.1
    rw [hash, hash, number, number', if_neg Bool.false_ne_true, if_neg Bool.false_ne_true]
    exact respects a b equal
  · rw [hash, hash, first, second, if_pos rfl, if_pos rfl]

theorem hashAll_of_each {as bs : List Expr}
    (each : List.Forall₂ (fun a b => a.hash h = b.hash h) as bs) : hashAll h as = hashAll h bs := by
  induction each with
  | nil => rfl
  | cons head _ ih => rw [hashAll, hashAll, head, ih]

theorem hash_of_same (respects : h.Respects) {e f : Expr} (equal : same e f = true) :
    e.hash h = f.hash h := by
  have matched := matches_of_same e f equal
  clear equal
  induction matched using Matches.induction with
  | const related => exact hash_const respects related
  | var x => rfl
  | bin op _ _ straight straight' => rw [hash, hash, straight, straight']
  | swapped commutes _ _ crossed crossed' =>
      rw [hash, hash, crossed, crossed']
      simp only [commutes, ↓reduceIte]
      exact h.unordered_swap _ _ _
  | neg _ operand => rw [hash, hash, operand]
  | call name _ each =>
      rw [hash, hash, hashAll_of_each]
      exact each.imp fun a b both => both.2

/-! ### Classes -/

def sameSetoid : Setoid Expr where
  r e f := same e f = true
  iseqv := ⟨same_refl, same_symm, same_trans⟩

def classOf (e : Expr) : Quotient sameSetoid := Quotient.mk sameSetoid e

theorem classOf_eq_iff (e f : Expr) : classOf e = classOf f ↔ same e f = true :=
  Quotient.eq (r := sameSetoid)

/-- The classes of expressions that were kept with their hashes. -/
def keptClasses (seen : List (UInt64 × Expr)) : List (Quotient sameSetoid) :=
  seen.map fun kept => classOf kept.2

/-- An expression counts as seen exactly if one of its class was kept. -/
theorem any_seen_iff (respects : h.Respects) {seen : List (UInt64 × Expr)}
    (coded : ∀ kept ∈ seen, kept.1 = kept.2.hash h) (e : Expr) :
    (seen.any fun other => other.1 == e.hash h && same other.2 e) = true ↔
      classOf e ∈ keptClasses seen := by
  simp only [List.any_eq_true, Bool.and_eq_true, beq_iff_eq, keptClasses, List.mem_map,
    classOf_eq_iff]
  constructor
  · rintro ⟨kept, inside, -, equal⟩
    exact ⟨kept, inside, equal⟩
  · rintro ⟨kept, inside, equal⟩
    exact ⟨kept, inside, (coded kept inside).trans (hash_of_same respects equal), equal⟩

/-- Each class is kept once: those that were kept before, and those of the further expressions. -/
theorem distinctBy_classes (respects : h.Respects) (es : List Expr) {seen : List (UInt64 × Expr)}
    (coded : ∀ kept ∈ seen, kept.1 = kept.2.hash h) (once : (keptClasses seen).Nodup) :
    (keptClasses (distinctBy h seen es)).Nodup ∧
      ∀ c, c ∈ keptClasses (distinctBy h seen es) ↔
        c ∈ keptClasses seen ∨ ∃ e ∈ es, classOf e = c := by
  induction es generalizing seen with
  | nil => simp [distinctBy, once]
  | cons e rest ih =>
      have known := any_seen_iff respects coded e
      rw [distinctBy]
      by_cases old : classOf e ∈ keptClasses seen
      · obtain ⟨nodup, members⟩ := ih coded once
        rw [if_pos (known.2 old)]
        refine ⟨nodup, fun c => (members c).trans ?_⟩
        simp only [List.exists_mem_cons_iff]
        constructor
        · rintro (before | later)
          · exact .inl before
          · exact .inr (.inr later)
        · rintro (before | rfl | later)
          · exact .inl before
          · exact .inl old
          · exact .inr later
      · have appended : keptClasses (seen ++ [(e.hash h, e)]) = keptClasses seen ++ [classOf e] := by
          rw [keptClasses, List.map_append]
          rfl
        have coded' : ∀ kept ∈ seen ++ [(e.hash h, e)], kept.1 = kept.2.hash h := by
          intro kept inside
          rcases List.mem_append.1 inside with before | new
          · exact coded kept before
          · rw [List.mem_singleton.1 new]
        have once' : (keptClasses (seen ++ [(e.hash h, e)])).Nodup := by
          rw [appended, ← List.concat_eq_append]
          exact once.concat old
        obtain ⟨nodup, members⟩ := ih coded' once'
        rw [if_neg (mt known.1 old)]
        refine ⟨nodup, fun c => (members c).trans ?_⟩
        rw [appended, List.mem_append, List.mem_singleton, List.exists_mem_cons_iff, or_assoc,
          eq_comm (a := c)]

theorem distinctCount_eq (respects : h.Respects) (es : List Expr) :
    distinctCount h es = {c | ∃ e ∈ es, classOf e = c}.ncard := by
  classical
  have none : ∀ kept ∈ ([] : List (UInt64 × Expr)), kept.1 = kept.2.hash h := by
    intro kept inside
    cases inside
  obtain ⟨once, members⟩ := distinctBy_classes respects es none List.nodup_nil
  have classes : {c | ∃ e ∈ es, classOf e = c} =
      ((keptClasses (distinctBy h [] es)).toFinset : Set _) := by
    ext c
    rw [List.coe_toFinset, Set.mem_ofPred_eq, Set.mem_ofPred_eq, members c]
    simp [keptClasses]
  rw [classes, Set.ncard_coe_finset, List.toFinset_card_of_nodup once, distinctCount, keptClasses,
    List.length_map]

/-! ### Wrapped expressions -/

end Expr

/-- A wrapper makes no difference: an expression that is asked about a wrapper has no answer, and the
wrapper then compares the other way round. -/
theorem Comparand.equals_eq (a b : Comparand) : a.equals b = a.tree.same b.tree := by
  cases a with
  | wrapped e => cases b <;> rfl
  | bare e =>
      cases b with
      | bare f => rfl
      | wrapped f =>
          change f.same e = e.same f
          rw [Bool.eq_iff_iff]
          exact ⟨Expr.same_symm, Expr.same_symm⟩

namespace Expr

/-- Equality is an equivalence on all expressions. Hashes made of primitive hashes that respect
equality of numbers are equal for equal expressions, so that counting different expressions by their
hashes counts the classes of equal ones. A wrapper around either side changes no comparison, and
whatever is equal has equal hashes, wrapped or not. -/
theorem equality_consistent :
    Equivalence (fun e f : Expr => e.same f = true) ∧
      (∀ h : Hashing, h.Respects →
        (∀ e f : Expr, e.same f = true → e.hash h = f.hash h) ∧
          (∀ es : List Expr, distinctCount h es = {c | ∃ e ∈ es, classOf e = c}.ncard) ∧
          ∀ a b : Comparand, a.equals b = true → a.hash h = b.hash h) ∧
      ∀ a b : Comparand, a.equals b = a.tree.same b.tree := by
  refine ⟨⟨same_refl, same_symm, same_trans⟩, fun h respects => ⟨?_, ?_, ?_⟩,
    Comparand.equals_eq⟩
  · intro e f equal
    exact hash_of_same respects equal
  · exact distinctCount_eq respects
  · intro a b equal
    rw [Comparand.equals_eq] at equal
    exact hash_of_same respects equal

/-- Where all hashes collide, the nodes of `(x + 0) - (-0 + x)` still fall into four classes: the
difference, the sum, the variable and the zero. -/
theorem equality_consistent_sums :
    let h : Hashing := ⟨fun _ => 0, 0, fun _ => 0, fun _ _ _ => 0, fun _ _ _ => 0, fun _ => 0,
      fun _ _ => 0⟩
    let sum : Expr := .bin .add (.var "x") (.const 0.0)
    let sum' : Expr := .bin .add (.const (-0.0)) (.var "x")
    let nodes := (Expr.bin .sub sum sum').breadthFirst
    h.Respects ∧ sum.same sum' = true ∧ sum.hash .standard = sum'.hash .standard ∧
      distinctCount h nodes = 4 ∧ {c | ∃ e ∈ nodes, classOf e = c}.ncard = 4 ∧
      (Comparand.bare sum).equals (.wrapped sum') = true := by
  intro h sum sum' nodes
  have respects : h.Respects := fun _ _ _ => rfl
  have equal : sum.same sum' = true := by decide +kernel
  have listed : nodes = [.bin .sub sum sum', sum, sum', .var "x", .const 0.0, .const (-0.0),
      .var "x"] := by
    simp only [nodes, sum, sum', breadthFirst, visitQueue, children, List.append_nil,
      List.nil_append, List.cons_append]
  have count : distinctCount h nodes = 4 := by
    rw [listed]
    decide +kernel
  obtain ⟨-, hashes, comparisons⟩ := equality_consistent
  obtain ⟨consistent, -, -⟩ := hashes .standard Hashing.standard_respects
  obtain ⟨-, counts, -⟩ := hashes h respects
  refine ⟨respects, equal, consistent sum sum' equal, count, ?_, ?_⟩
  · rw [← counts nodes]
    exact count
  · rw [comparisons]
    exact equal

end Expr

end Formula
