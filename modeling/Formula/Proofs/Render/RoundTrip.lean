import Formula.Parse
import Formula.Proofs.Render.Tokens
import Formula.Proofs.Simplify.Zeros
import Formula.Proofs.Yard.Completeness
import Formula.Proofs.Yard.Names

/-!
Parsed expressions read back. The text of a simplified expression reads as that expression, with its
constants below zero as negations again, unless a sign in front of the base of a power moves in front
of the power. Simplifying puts the constants back. A moved sign is never made good: the load of what
was read has one negation less in a base.
-/

set_option autoImplicit false

namespace Formula.Expr

open Decimal (isBelowZero sizeChars)

/-- A call that is not folded with zeros in place of negative zeros. -/
def StaysCall (strict : Bool) : Expr → Prop
  | .call name arguments => foldedCall? strict name (positiveZerosAll arguments) = none
  | .const _ | .var _ | .bin .. | .neg _ => True

/-- A simplified expression with finite constants, and names that the scanner and the yard gave. -/
structure Settled (strict : Bool) (e : Expr) : Prop where
  stands : e.Everywhere (Stands strict)
  named : e.Everywhere IsNamed
  finite : e.Everywhere HasFiniteValue

section

variable {strict : Bool} {e : Expr}

theorem Settled.left {op : BinaryOp} {left right : Expr}
    (settled : Settled strict (.bin op left right)) : Settled strict left :=
  ⟨settled.stands.left, settled.named.left, settled.finite.left⟩

theorem Settled.right {op : BinaryOp} {left right : Expr}
    (settled : Settled strict (.bin op left right)) : Settled strict right :=
  ⟨settled.stands.right, settled.named.right, settled.finite.right⟩

theorem Settled.operand {a : Expr} (settled : Settled strict (.neg a)) : Settled strict a :=
  ⟨settled.stands.operand, settled.named.operand, settled.finite.operand⟩

theorem Settled.argument {name : String} {arguments : List Expr}
    (settled : Settled strict (.call name arguments)) {a : Expr} (inside : a ∈ arguments) :
    Settled strict a :=
  ⟨settled.stands.argument inside, settled.named.argument inside, settled.finite.argument inside⟩

theorem isWritable_of_named (named : e.IsNamed) (finite : e.HasFiniteValue) : e.IsWritable := by
  cases e with
  | const value => exact finite
  | var name => exact named.1
  | bin op left right => exact trivial
  | neg operand => exact trivial
  | call name arguments => exact named

theorem Settled.writable (settled : Settled strict e) : e.Everywhere IsWritable :=
  (settled.named.and settled.finite).mono fun _ both => isWritable_of_named both.1 both.2

/-! ### What is read -/

theorem reread_var {name : String} (named : IsNamed (.var name)) :
    reread (.var name) = .var name := by
  rw [reread, ofIdentifier, named.2]

/-- A constant is simplified to itself again, but a negative zero to zero. -/
theorem simplify_reread_const (strict : Bool) (level : Level) {value : Float}
    (finite : HasFiniteValue (.const value)) :
    (simplify strict level (reread (.const value))).tree = positiveZeros (.const value) := by
  obtain ⟨b, decoded⟩ := finite
  rw [reread, positiveZeros]
  cases below : isBelowZero value with
  | true =>
      have negative : b.negative = true := by
        simp only [isBelowZero, decoded, Decimal.Binary.isBelowZero, Bool.and_eq_true] at below
        exact below.1
      simp only [↓reduceIte, simplify_neg, simplify_const, negated?]
      rw [Decimal.neg_readUnsigned_sizeChars decoded negative,
        Decimal.positiveZero_of_isBelowZero below]
  | false =>
      simp only [Bool.false_eq_true, ↓reduceIte, simplify_const]
      rw [Decimal.readUnsigned_sizeChars_of_not_below decoded below]

theorem trees_reread (strict : Bool) (level : Level) (arguments : List Expr) :
    (simplifyAll strict level (rereadAll arguments)).trees =
      arguments.map fun a => (simplify strict level (reread a)).tree := by
  rw [trees_simplifyAll, rereadAll_eq_map, List.map_map]
  rfl

/-- The arguments of a call are found again if each of them is. -/
theorem trees_reread_of_each {level : Level} {arguments : List Expr}
    (each : ∀ a ∈ arguments, (simplify strict level (reread a)).tree = positiveZeros a) :
    (simplifyAll strict level (rereadAll arguments)).trees = positiveZerosAll arguments := by
  rw [trees_reread, positiveZerosAll_eq_map]
  exact List.map_congr_left each

/-- What a simplified expression is read as is simplified to the expression again, up to negative
zeros. -/
theorem simplify_reread (level : Level) (e : Expr) (settled : Settled strict e)
    (plain : e.Everywhere HasPlainBase) (stays : e.Everywhere (StaysCall strict)) :
    (simplify strict level (reread e)).tree = positiveZeros e := by
  induction e using Expr.induction with
  | const value => exact simplify_reread_const strict level settled.finite.root
  | var name => rw [reread_var settled.named.root, simplify_var, positiveZeros]
  | bin op left right first second =>
      have kept := nextBinary_positiveZeros settled.stands.root settled.right.finite.root
      rw [reread_bin plain.root, tree_simplify_bin, first settled.left plain.left stays.left,
        second settled.right plain.right stays.right]
      simp only [kept, positiveZeros]
  | neg operand ih =>
      have kept := negated?_positiveZeros settled.stands.root
      rw [reread, tree_simplify_neg, ih settled.operand plain.operand stays.operand]
      simp only [kept, Option.getD_none, positiveZeros]
  | call name arguments ih =>
      have found := trees_reread_of_each fun a inside =>
        ih a inside (settled.argument inside) (plain.argument inside) (stays.argument inside)
      have kept : foldedCall? strict name (positiveZerosAll arguments) = none := stays.root
      rw [reread, tree_simplify_call, found]
      simp only [kept, Option.getD_none, positiveZeros]

/-! ### What is lost -/

/-- What an expression is read as has its weight and its negations, but where a base has a sign in
front of it, a negation less in a base. -/
structure KeepsLoad (e : Expr) : Prop where
  weight : (load (reread e)).weight = (load e).weight
  negations : (load (reread e)).negations = (load e).negations
  inBases : (load (reread e)).inBases ≤ (load e).inBases
  plain : (load (reread e)).inBases = (load e).inBases → e.Everywhere HasPlainBase

theorem keepsLoad_const {value : Float} (finite : HasFiniteValue (.const value)) :
    KeepsLoad (.const value) := by
  have base := (everywhere_const (p := HasPlainBase) value).2 trivial
  obtain ⟨b, decoded⟩ := finite
  have size := Decimal.not_isBelowZero_readUnsigned decoded
  have same : load (reread (.const value)) = load (.const value) := by
    rw [reread]
    cases below : isBelowZero value with
    | true =>
        simp only [↓reduceIte, load, constantLoad, size, below, Bool.false_eq_true, Load.negation]
    | false => simp only [Bool.false_eq_true, ↓reduceIte, load, constantLoad, size, below]
  exact ⟨by rw [same], by rw [same], by rw [same], fun _ => base⟩

/-- A sign that moves in front of a power is lost for its base. -/
theorem keepsLoad_pow_signed {left right : Expr} (signed : left.isSigned = true)
    (first : KeepsLoad left) (second : KeepsLoad right) : KeepsLoad (.bin .pow left right) := by
  obtain ⟨ts, base, -, reads, -⟩ := (rereads left).signed signed
  have moved : reread (.bin .pow left right) = .neg (.bin .pow base (reread right)) := by
    rw [reread, signed, reads, rejoin]
  obtain ⟨weight, negations, inBases, -⟩ := first
  obtain ⟨weight', negations', inBases', -⟩ := second
  rw [reads] at weight negations inBases
  have less : (load (reread (.bin .pow left right))).inBases <
      (load (.bin .pow left right)).inBases := by
    rw [moved]
    simp only [load, Load.binary, Load.negation, ↓reduceIte] at negations inBases ⊢
    omega
  refine ⟨?_, ?_, less.le, fun same => absurd same less.ne⟩
  · rw [moved]
    simp only [load, Load.binary, Load.negation] at weight ⊢
    omega
  · rw [moved]
    simp only [load, Load.binary, Load.negation] at negations ⊢
    omega

theorem keepsLoad_bin {op : BinaryOp} {left right : Expr}
    (plain : HasPlainBase (.bin op left right)) (first : KeepsLoad left)
    (second : KeepsLoad right) : KeepsLoad (.bin op left right) := by
  obtain ⟨weight, negations, inBases, bases⟩ := first
  obtain ⟨weight', negations', inBases', bases'⟩ := second
  refine ⟨?_, ?_, ?_, ?_⟩
  · simp only [reread_bin plain, load, Load.binary]
    omega
  · simp only [reread_bin plain, load, Load.binary]
    omega
  · simp only [reread_bin plain, load, Load.binary, negations]
    omega
  · intro same
    simp only [reread_bin plain, load, Load.binary, negations] at same
    exact (everywhere_bin op left right).2 ⟨plain, bases (by omega), bases' (by omega)⟩

theorem keepsLoad_call {name : String} (arguments : List Expr)
    (each : ∀ a ∈ arguments, KeepsLoad a) : KeepsLoad (.call name arguments) := by
  have all : (loadAll (rereadAll arguments)).weight = (loadAll arguments).weight ∧
      (loadAll (rereadAll arguments)).negations = (loadAll arguments).negations ∧
      (loadAll (rereadAll arguments)).inBases ≤ (loadAll arguments).inBases ∧
      ((loadAll (rereadAll arguments)).inBases = (loadAll arguments).inBases →
        ∀ a ∈ arguments, a.Everywhere HasPlainBase) := by
    induction arguments with
    | nil => exact ⟨rfl, rfl, Nat.le_refl _, fun _ => List.forall_mem_nil _⟩
    | cons a rest ih =>
        obtain ⟨weight, negations, inBases, bases⟩ := each a List.mem_cons_self
        obtain ⟨weight', negations', inBases', bases'⟩ :=
          ih fun b inside => each b (List.mem_cons_of_mem a inside)
        simp only [rereadAll, loadAll, Load.add]
        refine ⟨by omega, by omega, by omega, ?_⟩
        intro same
        exact List.forall_mem_cons.2 ⟨bases (by omega), bases' (by omega)⟩
  obtain ⟨weight, negations, inBases, bases⟩ := all
  refine ⟨?_, negations, inBases, fun same => (everywhere_call _ _).2 ⟨trivial, bases same⟩⟩
  simp only [reread, load, Load.call]
  omega

theorem keepsLoad (e : Expr) (named : e.Everywhere IsNamed) (finite : e.Everywhere HasFiniteValue) :
    KeepsLoad e := by
  induction e using Expr.induction with
  | const value => exact keepsLoad_const finite.root
  | var name =>
      have same := reread_var named.root
      have base := (everywhere_var (p := HasPlainBase) name).2 trivial
      exact ⟨by rw [same], by rw [same], by rw [same], fun _ => base⟩
  | bin op left right first second =>
      have left' := first named.left finite.left
      have right' := second named.right finite.right
      by_cases plain : op = .pow → left.isSigned = false
      · exact keepsLoad_bin plain left' right'
      · rw [Classical.not_imp, Bool.not_eq_false] at plain
        obtain ⟨rfl, signed⟩ := plain
        exact keepsLoad_pow_signed signed left' right'
  | neg operand ih =>
      obtain ⟨weight, negations, inBases, bases⟩ := ih named.operand finite.operand
      refine ⟨?_, ?_, inBases, fun same => (everywhere_neg _).2 ⟨trivial, bases same⟩⟩
      · simp only [reread, load, Load.negation, weight]
      · simp only [reread, load, Load.negation, negations]
  | call name arguments ih =>
      apply keepsLoad_call
      intro a inside
      exact ih a inside (named.argument inside) (finite.argument inside)

/-! ### What is found again -/

/-- What the simplifier makes of an operation is lighter than its simplified operands together. -/
theorem lighter_simplify_bin (strict : Bool) (level : Level) (op : BinaryOp) (left right : Expr) :
    Load.Lighter (load (simplify strict level (.bin op left right)).tree)
      (load (.bin op (simplify strict level left).tree (simplify strict level right).tree)) := by
  rw [tree_simplify_bin]
  cases next : nextBinary strict op (simplify strict level left).tree
      (simplify strict level right).tree with
  | keep => exact .refl _
  | settle e => exact .inl (weight_settle_lt next)
  | again e =>
      exact (lighter_of_rewrites (rewrites_simplify strict level e)).trans
        (nextBinary_again_cases next).lighter

theorem lighter_simplify_neg (strict : Bool) (level : Level) (a : Expr) :
    Load.Lighter (load (simplify strict level (.neg a)).tree)
      (load (.neg (simplify strict level a).tree)) := by
  rw [tree_simplify_neg]
  cases gone : negated? (simplify strict level a).tree with
  | none => exact .refl _
  | some e => exact lighter_negated? gone

/-- Nothing weighs more after it was read and simplified. -/
theorem weight_simplify_reread_le (level : Level) {e : Expr} (settled : Settled strict e) :
    (load (simplify strict level (reread e)).tree).weight ≤ (load e).weight := by
  rw [← (keepsLoad e settled.named settled.finite).weight]
  exact (lighter_of_rewrites (rewrites_simplify strict level (reread e))).weight_le

theorem weight_loadAll_map_le (f : Expr → Expr) (es : List Expr)
    (le : ∀ e ∈ es, (load (f e)).weight ≤ (load e).weight) :
    (loadAll (es.map f)).weight ≤ (loadAll es).weight := by
  induction es with
  | nil => exact Nat.le_refl _
  | cons e rest ih =>
      have first := le e List.mem_cons_self
      have more := ih fun a inside => le a (List.mem_cons_of_mem e inside)
      simp only [List.map_cons, loadAll, Load.add]
      omega

/-- If several expressions lose nothing together, each of them loses nothing. -/
theorem weight_eq_of_loadAll (f : Expr → Expr) (es : List Expr)
    (le : ∀ e ∈ es, (load (f e)).weight ≤ (load e).weight)
    (whole : (loadAll (es.map f)).weight = (loadAll es).weight) :
    ∀ e ∈ es, (load (f e)).weight = (load e).weight := by
  induction es with
  | nil => exact List.forall_mem_nil _
  | cons e rest ih =>
      have first := le e List.mem_cons_self
      have behind := fun a inside => le a (List.mem_cons_of_mem e inside)
      have more := weight_loadAll_map_le f rest behind
      simp only [List.map_cons, loadAll, Load.add] at whole
      exact List.forall_mem_cons.2 ⟨by omega, ih behind (by omega)⟩

/-- If nothing is lost when an expression is read and simplified, its calls stay calls. -/
theorem staysCall_of_weight (level : Level) (e : Expr) (settled : Settled strict e)
    (plain : e.Everywhere HasPlainBase)
    (whole : (load (simplify strict level (reread e)).tree).weight = (load e).weight) :
    e.Everywhere (StaysCall strict) := by
  induction e using Expr.induction with
  | const value => exact (everywhere_const value).2 trivial
  | var name => exact (everywhere_var name).2 trivial
  | bin op left right first second =>
      have le := weight_simplify_reread_le level settled.left
      have le' := weight_simplify_reread_le level settled.right
      rw [reread_bin plain.root] at whole
      have lighter :=
        (lighter_simplify_bin strict level op (reread left) (reread right)).weight_le
      rw [whole] at lighter
      simp only [load, Load.binary] at lighter
      exact (everywhere_bin op left right).2 ⟨trivial, first settled.left plain.left (by omega),
        second settled.right plain.right (by omega)⟩
  | neg operand ih =>
      have le := weight_simplify_reread_le level settled.operand
      rw [reread] at whole
      have lighter := (lighter_simplify_neg strict level (reread operand)).weight_le
      rw [whole] at lighter
      simp only [load, Load.negation] at lighter
      exact (everywhere_neg operand).2
        ⟨trivial, ih settled.operand plain.operand (by omega)⟩
  | call name arguments ih =>
      rw [reread, tree_simplify_call] at whole
      cases folded : foldedCall? strict name (simplifyAll strict level (rereadAll arguments)).trees with
      | some e =>
          obtain ⟨value, rfl⟩ := foldedCall?_cases folded
          have constant := (weight_constantLoad value).2
          simp only [folded, Option.getD_some, load, Load.call] at whole
          omega
      | none =>
          simp only [folded, Option.getD_none, load, Load.call] at whole
          rw [trees_reread] at whole
          have each := weight_eq_of_loadAll _ arguments
            (fun a inside => weight_simplify_reread_le level (settled.argument inside)) (by omega)
          have stays : ∀ a ∈ arguments, a.Everywhere (StaysCall strict) := by
            intro a inside
            exact ih a inside (settled.argument inside) (plain.argument inside) (each a inside)
          have found := trees_reread_of_each fun a inside =>
            simplify_reread level a (settled.argument inside) (plain.argument inside) (stays a inside)
          rw [found] at folded
          exact (everywhere_call name arguments).2 ⟨folded, stays⟩

/-- The text of an expression is parsed to what the simplifier makes of its reading. -/
theorem parse_render (strict : Bool) (level : Level) {n : Int} (e : Expr)
    (writable : e.Everywhere IsWritable) (nested : (e.depth : Int) ≤ n)
    (deep : ((reread e).depth : Int) ≤ n) :
    (parse strict level n e.render).value = .ok (simplify strict level (reread e)).tree := by
  obtain ⟨ts, scanned, lexemes⟩ := scan_render e writable
  have within : (Lexeme.nesting (ts.map Token.lexeme) : Int) ≤ n := by
    have inside := nesting_written_le e
    rw [lexemes]
    omega
  have read : ofTokens (some n) ts = .ok (reread e) := by
    rw [Yard.Levels.ofTokens_eq_parse, Yard.Levels.parse_of_nesting_le n ts within]
    exact Yard.Levels.parse_of_phrase ts _ (lexemes ▸ (rereads e).sum)
  have shallow : checkDepth n (reread e) = .ok () := by
    rw [checkDepth, if_neg (by omega)]
  simp only [parse, tokens, scanned, orMalformed, parseTokens, read, shallow]

/-- What was parsed is a simplified expression with names that the scanner and the yard gave. -/
theorem settled_of_parse {level : Level} {limit : Int} {text : String} {t : Expr}
    (parsed : (parse strict level limit text).value = .ok t)
    (finite : t.Everywhere HasFiniteValue) : Settled strict t := by
  rw [parse, tokens] at parsed
  cases scanned : Token.scan text with
  | error cause =>
      rw [scanned] at parsed
      cases parsed
  | ok ts =>
      simp only [scanned, orMalformed, parseTokens] at parsed
      cases read : ofTokens (some limit) ts with
      | error failure =>
          simp only [read] at parsed
          cases parsed
      | ok raw =>
          simp only [read] at parsed
          split at parsed
          · cases parsed
          · cases parsed
            have run := rewrites_simplify strict level raw
            have legal := Token.isNamed_of_scanFrom 0 text.toList ts scanned
            refine ⟨stands_of_rewrites run, ?_, finite⟩
            exact everywhere_of_rewrites run (fun _ => trivial) (fun _ _ _ => trivial)
              (fun _ => trivial) (fun _ _ _ _ named => named) (named_of_ofTokens legal read)

/-- The text of a parsed expression with finite constants is parsed to an equal expression, under
all limits that are large enough, exactly if no base of a power in it is a negation or a constant
below zero, and if no call in it that was left with a negative zero can be folded with a zero. -/
theorem parse_render_same_iff (strict : Bool) (level : Level) (limit : Int) (text : String)
    (t : Expr) (parsed : (parse strict level limit text).value = .ok t)
    (finite : t.Everywhere HasFiniteValue) :
    (∃ bound : Int, ∀ n, bound ≤ n →
        ∃ t', (parse strict level n t.render).value = .ok t' ∧ same t' t = true) ↔
      t.Everywhere HasPlainBase ∧ t.Everywhere (StaysCall strict) := by
  have settled := settled_of_parse parsed finite
  constructor
  · rintro ⟨bound, again⟩
    obtain ⟨t', read, equal⟩ := again (max bound (max t.depth (reread t).depth)) (le_max_left _ _)
    rw [parse_render strict level t settled.writable (by omega) (by omega)] at read
    cases read
    have loads := load_of_same _ _ equal
    have kept := keepsLoad t settled.named settled.finite
    have plain : t.Everywhere HasPlainBase := by
      rcases lighter_of_rewrites (rewrites_simplify strict level (reread t)) with less | unchanged
      · rw [loads, kept.weight] at less
        exact absurd less (Nat.lt_irrefl _)
      · rw [loads] at unchanged
        exact kept.plain (by rw [unchanged])
    exact ⟨plain, staysCall_of_weight level t settled plain (by rw [loads])⟩
  · rintro ⟨plain, stays⟩
    refine ⟨max t.depth (reread t).depth, fun n large => ⟨positiveZeros t, ?_, ?_⟩⟩
    · rw [parse_render strict level t settled.writable (by omega) (by omega),
        simplify_reread level t settled plain stays]
    · exact same_positiveZeros t finite

end

/-- `-x ^ 2 * f(0.5)` comes back. -/
theorem parse_render_same_iff_product :
    (parse false .silent 100 "-x^2 * f(0.5)").value =
        .ok (.bin .mul (.neg (.bin .pow (.var "x") (.const 2.0))) (.call "f" [.const 0.5])) ∧
      ∃ bound : Int, ∀ n, bound ≤ n → ∃ t',
        (parse false .silent n (Expr.bin .mul (.neg (.bin .pow (.var "x") (.const 2.0)))
          (.call "f" [.const 0.5])).render).value = .ok t' ∧
        same t' (.bin .mul (.neg (.bin .pow (.var "x") (.const 2.0))) (.call "f" [.const 0.5])) =
          true := by
  have parsed : (parse false .silent 100 "-x^2 * f(0.5)").value =
      .ok (.bin .mul (.neg (.bin .pow (.var "x") (.const 2.0))) (.call "f" [.const 0.5])) := by
    have scanned : Token.scan "-x^2 * f(0.5)" = .ok [⟨.operator .sub, 0⟩, ⟨.identifier "x", 1⟩,
        ⟨.operator .pow, 2⟩, ⟨.number "2", 3⟩, ⟨.operator .mul, 5⟩, ⟨.identifier "f", 7⟩,
        ⟨.leftParen, 8⟩, ⟨.number "0.5", 9⟩, ⟨.rightParen, 12⟩] := by
      decide +kernel
    have read : ofTokens (some 100) [⟨.operator .sub, 0⟩, ⟨.identifier "x", 1⟩,
        ⟨.operator .pow, 2⟩, ⟨.number "2", 3⟩, ⟨.operator .mul, 5⟩, ⟨.identifier "f", 7⟩,
        ⟨.leftParen, 8⟩, ⟨.number "0.5", 9⟩, ⟨.rightParen, 12⟩] =
          .ok (.bin .mul (.neg (.bin .pow (.var "x") (.const 2.0))) (.call "f" [.const 0.5])) := rfl
    have shallow : checkDepth 100 (.bin .mul (.neg (.bin .pow (.var "x") (.const 2.0)))
        (.call "f" [.const 0.5])) = .ok () := by
      rw [checkDepth, depth_eq_height]
      rfl
    have power : nextBinary false .pow (.var "x") (.const 2.0) = .keep := by
      have notZero : ((2.0 : Float) == 0.0) = false := by decide +kernel
      have notOne : ((2.0 : Float) == 1.0) = false := by decide +kernel
      simp [nextBinary, foldBinary, reduce, identity?, isConstant, powerRule, notZero, notOne]
    have product : nextBinary false .mul (.neg (.bin .pow (.var "x") (.const 2.0)))
        (.call "f" [.const 0.5]) = .keep := rfl
    have call : foldedCall? false "f" [.const 0.5] = none := by
      rfl
    simp only [parse, tokens, scanned, orMalformed, parseTokens, read, shallow, tree_simplify_bin,
      tree_simplify_neg, tree_simplify_call, trees_simplifyAll, List.map_cons, List.map_nil,
      simplify_const, simplify_var, power, negated?, Option.getD_none, call, product]
  have two : ∃ b, Decimal.decode 2.0 = .finite b := ⟨⟨false, 2 ^ 52, -51⟩, by decide +kernel⟩
  have half : ∃ b, Decimal.decode 0.5 = .finite b := ⟨⟨false, 2 ^ 52, -53⟩, by decide +kernel⟩
  refine ⟨parsed, (parse_render_same_iff false .silent 100 _ _ parsed ?_).2 ⟨?_, ?_⟩⟩
  · simp [HasFiniteValue, two, half]
  · simp [HasPlainBase, isSigned]
  · have call : foldedCall? false "f" [.const (Decimal.positiveZero 0.5)] = none := rfl
    simp [StaysCall, positiveZerosAll, positiveZeros, call]

/-- `(-2) ^ x` is written as `(-2 ^ x)`, which is the negation of a power. -/
theorem parse_render_negative_base :
    (parse false .silent 100 "(-2)^x").value = .ok (.bin .pow (.const (-2.0)) (.var "x")) ∧
      (Expr.bin .pow (.const (-2.0)) (.var "x")).Everywhere HasFiniteValue ∧
      ¬ ∃ bound : Int, ∀ n, bound ≤ n → ∃ t',
        (parse false .silent n (Expr.bin .pow (.const (-2.0)) (.var "x")).render).value = .ok t' ∧
          same t' (.bin .pow (.const (-2.0)) (.var "x")) = true := by
  have kept (value : Float) (notZero : (value == 0.0) = false) (notOne : (value == 1.0) = false) :
      nextBinary false .pow (.const value) (.var "x") = .keep := by
    simp [nextBinary, foldBinary, reduce, identity?, isConstant, powerRule, notZero, notOne]
  have two : Decimal.decode (-2.0) = .finite ⟨true, 2 ^ 52, -51⟩ := by decide +kernel
  have x : Token.isIdentifier "x" = true := by decide +kernel
  refine ⟨?_, ?_, ?_⟩
  · have scanned : Token.scan "(-2)^x" = .ok [⟨.leftParen, 0⟩, ⟨.operator .sub, 1⟩,
        ⟨.number "2", 2⟩, ⟨.rightParen, 3⟩, ⟨.operator .pow, 4⟩, ⟨.identifier "x", 5⟩] := by
      decide +kernel
    have read : ofTokens (some 100) [⟨.leftParen, 0⟩, ⟨.operator .sub, 1⟩, ⟨.number "2", 2⟩,
        ⟨.rightParen, 3⟩, ⟨.operator .pow, 4⟩, ⟨.identifier "x", 5⟩] =
          .ok (.bin .pow (.neg (.const 2.0)) (.var "x")) := rfl
    have shallow : checkDepth 100 (.bin .pow (.neg (.const 2.0)) (.var "x")) = .ok () := by
      rw [checkDepth, depth_eq_height]
      rfl
    simp only [parse, tokens, scanned, orMalformed, parseTokens, read, shallow, tree_simplify_bin,
      tree_simplify_neg, simplify_const, simplify_var, negated?, Option.getD_some,
      kept (-2.0) (by decide +kernel) (by decide +kernel)]
  · simp [HasFiniteValue, two]
  · rintro ⟨bound, again⟩
    have signed : Decimal.isBelowZero (-2.0) = true := by decide +kernel
    have moved : reread (.bin .pow (.const (-2.0)) (.var "x")) =
        .neg (.bin .pow (.const (Decimal.readUnsigned (Decimal.sizeChars (-2.0)))) (.var "x")) := by
      simp [reread, isSigned, signed, rejoin, ofIdentifier, reserved?]
    have deep (e : Expr) (low : e.height ≤ 3) : (e.depth : Int) ≤ max bound 3 := by
      rw [depth_eq_height]
      omega
    obtain ⟨t', read, equal⟩ := again (max bound 3) (le_max_left _ _)
    rw [parse_render false .silent _ (by simp [IsWritable, two, x]) (deep _ (by decide))
      (by rw [moved]; exact deep _ (by decide)), moved, tree_simplify_neg, tree_simplify_bin,
      simplify_const, simplify_var, kept _ (by decide +kernel) (by decide +kernel)] at read
    cases read
    cases equal

end Formula.Expr
