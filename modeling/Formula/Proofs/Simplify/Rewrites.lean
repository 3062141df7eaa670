import Formula.Expr.Simplify
import Formula.Proofs.Expr.Nodes

/-!
What the simplifier can do. Every run of it is a derivation of the relation below, with one
constructor for each way it takes, and what the rules over powers build is listed likewise. A
derivation leaves nothing that could be simplified further, and no new names.
-/

set_option autoImplicit false

namespace Formula.Expr

/-! ### Runs -/

/-- An expression is simplified to another one. -/
inductive Rewrites (strict : Bool) : Expr → Expr → Prop
  | const (value : Float) : Rewrites strict (.const value) (.const value)
  | var (name : String) : Rewrites strict (.var name) (.var name)
  | negKept {a a' : Expr} (operand : Rewrites strict a a') (kept : negated? a' = none) :
      Rewrites strict (.neg a) (.neg a')
  | negGone {a a' e : Expr} (operand : Rewrites strict a a') (gone : negated? a' = some e) :
      Rewrites strict (.neg a) e
  | callKept (name : String) (parts : List (Expr × Expr))
      (each : ∀ p ∈ parts, Rewrites strict p.1 p.2)
      (kept : foldedCall? strict name (parts.map Prod.snd) = none) :
      Rewrites strict (.call name (parts.map Prod.fst)) (.call name (parts.map Prod.snd))
  | callFolded (name : String) (parts : List (Expr × Expr)) {e : Expr}
      (each : ∀ p ∈ parts, Rewrites strict p.1 p.2)
      (folded : foldedCall? strict name (parts.map Prod.snd) = some e) :
      Rewrites strict (.call name (parts.map Prod.fst)) e
  | binKept {op : BinaryOp} {left left' right right' : Expr} (first : Rewrites strict left left')
      (second : Rewrites strict right right') (kept : nextBinary strict op left' right' = .keep) :
      Rewrites strict (.bin op left right) (.bin op left' right')
  | binSettled {op : BinaryOp} {left left' right right' e : Expr}
      (first : Rewrites strict left left') (second : Rewrites strict right right')
      (settled : nextBinary strict op left' right' = .settle e) :
      Rewrites strict (.bin op left right) e
  | binAgain {op : BinaryOp} {left left' right right' e s : Expr}
      (first : Rewrites strict left left') (second : Rewrites strict right right')
      (again : nextBinary strict op left' right' = .again e) (more : Rewrites strict e s) :
      Rewrites strict (.bin op left right) s

section

variable (strict : Bool) (level : Level)

theorem tree_simplify_neg (a : Expr) :
    (simplify strict level (.neg a)).tree =
      (negated? (simplify strict level a).tree).getD (.neg (simplify strict level a).tree) := by
  simp only [simplify_neg]
  cases negated? (simplify strict level a).tree <;> rfl

theorem tree_simplify_call (name : String) (arguments : List Expr) :
    (simplify strict level (.call name arguments)).tree =
      (foldedCall? strict name (simplifyAll strict level arguments).trees).getD
        (.call name (simplifyAll strict level arguments).trees) := by
  simp only [simplify_call]
  cases foldedCall? strict name (simplifyAll strict level arguments).trees <;> rfl

theorem tree_simplify_bin (op : BinaryOp) (left right : Expr) :
    (simplify strict level (.bin op left right)).tree =
      match nextBinary strict op (simplify strict level left).tree
          (simplify strict level right).tree with
      | .settle e => e
      | .again e => (simplify strict level e).tree
      | .keep => .bin op (simplify strict level left).tree (simplify strict level right).tree := by
  simp only [simplify_bin]
  cases nextBinary strict op (simplify strict level left).tree
    (simplify strict level right).tree <;> rfl

end

theorem trees_simplifyAll (strict : Bool) (level : Level) (es : List Expr) :
    (simplifyAll strict level es).trees = es.map fun e => (simplify strict level e).tree := by
  induction es with
  | nil => rw [simplifyAll_nil, List.map_nil]
  | cons e rest ih => rw [simplifyAll_cons, List.map_cons, ← ih]

theorem productCount_le_total {e : Expr} {es : List Expr} (inside : e ∈ es) :
    productCount e ≤ totalProducts es := by
  induction es with
  | nil => cases inside
  | cons f rest ih =>
      rw [totalProducts]
      rcases List.mem_cons.1 inside with rfl | among
      · omega
      · have within := ih among
        omega

theorem size_le_total {e : Expr} {es : List Expr} (inside : e ∈ es) : e.size ≤ totalSize es := by
  induction es with
  | nil => cases inside
  | cons f rest ih =>
      rw [totalSize]
      rcases List.mem_cons.1 inside with rfl | among
      · omega
      · have within := ih among
        omega

/-- The simplifier runs as the relation allows. -/
theorem rewrites_simplify (strict : Bool) (level : Level) (e : Expr) :
    Rewrites strict e (simplify strict level e).tree := by
  match e with
  | .const value =>
      rw [simplify_const]
      exact .const value
  | .var name =>
      rw [simplify_var]
      exact .var name
  | .neg a =>
      have operand := rewrites_simplify strict level a
      rw [tree_simplify_neg]
      cases result : negated? (simplify strict level a).tree with
      | none => exact .negKept operand result
      | some e => exact .negGone operand result
  | .call name arguments =>
      let parts := arguments.map fun a => (a, (simplify strict level a).tree)
      have each : ∀ p ∈ parts, Rewrites strict p.1 p.2 := by
        intro p inside
        obtain ⟨a, among, rfl⟩ := List.mem_map.1 inside
        exact rewrites_simplify strict level a
      have firsts : parts.map Prod.fst = arguments := by
        simp only [parts, List.map_map, Function.comp_def, List.map_id']
      have seconds : parts.map Prod.snd = (simplifyAll strict level arguments).trees := by
        simp only [parts, List.map_map, Function.comp_def, trees_simplifyAll]
      rw [tree_simplify_call]
      cases result : foldedCall? strict name (simplifyAll strict level arguments).trees with
      | none =>
          have run := Rewrites.callKept name parts each (seconds ▸ result)
          rwa [firsts, seconds] at run
      | some e =>
          have run := Rewrites.callFolded name parts each (seconds ▸ result)
          rwa [firsts] at run
  | .bin op left right =>
      have first := rewrites_simplify strict level left
      have second := rewrites_simplify strict level right
      rw [tree_simplify_bin]
      cases result : nextBinary strict op (simplify strict level left).tree
          (simplify strict level right).tree with
      | keep => exact .binKept first second result
      | settle e => exact .binSettled first second result
      | again e =>
          have smaller : productCount e < productCount (.bin op left right) := by
            have fewer := nextBinary_again_productCount result
            have leftCount := simplify_productCount strict level left
            have rightCount := simplify_productCount strict level right
            simp only [productCount] at fewer ⊢
            omega
          exact .binAgain first second result (rewrites_simplify strict level e)
termination_by (productCount e, size e)
decreasing_by
  · exact Prod.Lex.right _ (by simp only [size]; omega)
  · apply Prod.lex_def.2
    have count := productCount_le_total among
    have inner := size_le_total among
    simp only [productCount, size]
    omega
  · apply Prod.lex_def.2
    simp only [productCount, size]
    omega
  · apply Prod.lex_def.2
    simp only [productCount, size]
    omega
  · exact Prod.Lex.left _ _ smaller

theorem trees_of_parts {strict : Bool} {level : Level} {parts : List (Expr × Expr)}
    (each : ∀ p ∈ parts, (simplify strict level p.1).tree = p.2) :
    (simplifyAll strict level (parts.map Prod.fst)).trees = parts.map Prod.snd := by
  rw [trees_simplifyAll, List.map_map]
  exact List.map_congr_left each

/-- What the relation allows is what the simplifier makes, at any level of logging. -/
theorem tree_of_rewrites {strict : Bool} (level : Level) {e s : Expr}
    (rewrites : Rewrites strict e s) : (simplify strict level e).tree = s := by
  induction rewrites with
  | const value => rw [simplify_const]
  | var name => rw [simplify_var]
  | negKept _ kept ih =>
      rw [tree_simplify_neg, ih, kept]
      rfl
  | negGone _ gone ih =>
      rw [tree_simplify_neg, ih, gone]
      rfl
  | callKept name parts _ kept ih =>
      rw [tree_simplify_call, trees_of_parts ih, kept]
      rfl
  | callFolded name parts _ folded ih =>
      rw [tree_simplify_call, trees_of_parts ih, folded]
      rfl
  | binKept _ _ kept first second =>
      rw [tree_simplify_bin, first, second, kept]
  | binSettled _ _ settled first second =>
      rw [tree_simplify_bin, first, second, settled]
  | binAgain _ _ again _ first second more =>
      rw [tree_simplify_bin, first, second, again]
      exact more

/-! ### Steps -/

/-- A variable, or a power of it. -/
inductive PowerOf (x : String) : Expr → Expr → Prop
  | itself : PowerOf x (.var x) .one
  | power (a : Expr) : PowerOf x (.bin .pow (.var x) a) a

/-- What the rules over powers of one variable make of an operation. -/
inductive Regroups : BinaryOp → Expr → Expr → Expr → Prop
  | timesQuotient {x : String} {factor a : Expr} (c : Expr) (power : PowerOf x factor a) :
      Regroups .mul factor (.bin .div c (.var x))
        (.bin .mul c (.bin .pow (.var x) (.bin .sub a .one)))
  | quotientTimes {x : String} {factor a : Expr} (c : Expr) (power : PowerOf x factor a) :
      Regroups .mul (.bin .div c (.var x)) factor
        (.bin .mul c (.bin .pow (.var x) (.bin .sub a .one)))
  | timesReciprocal (x : String) (value : Float) (c : Expr) (one : c.isConstant 1.0 = true) :
      Regroups .mul (.const value) (.bin .div c (.var x)) (.bin .div (.const value) (.var x))
  | reciprocalTimes (x : String) (value : Float) (c : Expr) (one : c.isConstant 1.0 = true) :
      Regroups .mul (.bin .div c (.var x)) (.const value) (.bin .div (.const value) (.var x))
  | product {x : String} {left right a b : Expr} (first : PowerOf x left a)
      (second : PowerOf x right b) :
      Regroups .mul left right (.bin .pow (.var x) (.bin .add a b))
  | quotient {x : String} {left right a b : Expr} (first : PowerOf x left a)
      (second : PowerOf x right b) :
      Regroups .div left right (.bin .pow (.var x) (.bin .sub a b))

theorem powerOf_of_powerForm? {e a : Expr} {x : String} (form : powerForm? e = some (x, a)) :
    PowerOf x e a := by
  unfold powerForm? at form
  split at form
  · cases form
    exact .itself
  · cases form
    exact .power a
  · cases form

theorem eq_of_overVariable? {e c : Expr} {x : String} (form : overVariable? e = some (c, x)) :
    e = .bin .div c (.var x) := by
  unfold overVariable? at form
  split at form
  · cases form
    rfl
  · cases form

theorem powersOf_of_commonBase? {left right a b : Expr} {x : String}
    (common : commonBase? left right = some (x, a, b)) :
    PowerOf x left a ∧ PowerOf x right b := by
  unfold commonBase? at common
  split at common
  · next first second =>
      split at common
      · next same =>
          cases common
          exact ⟨powerOf_of_powerForm? first, powerOf_of_powerForm? (same ▸ second)⟩
      · cases common
  · cases common

/-- A factor with a quotient by a variable becomes a product with a power, or a quotient again. -/
theorem timesQuotient?_cases {factor other e : Expr}
    (found : timesQuotient? factor other = some e) :
    (∃ x c a, PowerOf x factor a ∧ other = .bin .div c (.var x) ∧
      e = .bin .mul c (.bin .pow (.var x) (.bin .sub a .one))) ∨
    (∃ x c value, c.isConstant 1.0 = true ∧ factor = .const value ∧ other = .bin .div c (.var x) ∧
      e = .bin .div (.const value) (.var x)) := by
  unfold timesQuotient? at found
  split at found
  · cases found
  · next c x quotient =>
      split at found
      · next y a form =>
          split at found
          · next same =>
              cases found
              have power := powerOf_of_powerForm? form
              exact .inl ⟨x, c, a, same ▸ power, eq_of_overVariable? quotient, rfl⟩
          · cases found
      · split at found
        · next value _ =>
            split at found
            · next one =>
                cases found
                exact .inr ⟨x, c, value, one, rfl, eq_of_overVariable? quotient, rfl⟩
            · cases found
        · cases found

/-- What a rule over powers hands on to be simplified. -/
theorem regroups_of_powerRule {op : BinaryOp} {left right e : Expr}
    (ruled : powerRule op left right = .again e) : Regroups op left right e := by
  unfold powerRule at ruled
  split at ruled
  · split at ruled
    · next found =>
        cases ruled
        obtain ⟨x, c, a, power, rfl, rfl⟩ | ⟨x, c, value, one, rfl, rfl, rfl⟩ :=
          timesQuotient?_cases found
        · exact .timesQuotient c power
        · exact .timesReciprocal x value c one
    · split at ruled
      · next found =>
          cases ruled
          obtain ⟨x, c, a, power, rfl, rfl⟩ | ⟨x, c, value, one, rfl, rfl, rfl⟩ :=
            timesQuotient?_cases found
          · exact .quotientTimes c power
          · exact .reciprocalTimes x value c one
      · split at ruled
        · next common =>
            cases ruled
            obtain ⟨first, second⟩ := powersOf_of_commonBase? common
            exact .product first second
        · cases ruled
  · split at ruled
    · cases ruled
    · split at ruled
      · next common =>
          cases ruled
          obtain ⟨first, second⟩ := powersOf_of_commonBase? common
          exact .quotient first second
      · cases ruled
  · cases ruled

theorem nextBinary_again_cases {strict : Bool} {op : BinaryOp} {left right e : Expr}
    (again : nextBinary strict op left right = .again e) : Regroups op left right e := by
  unfold nextBinary at again
  split at again
  · cases again
  · split at again
    · cases again
    · next reduced =>
        cases again
        unfold reduce at reduced
        split at reduced
        · cases reduced
        · exact regroups_of_powerRule reduced
    · cases again

/-- The laws that settle an operation at once. A zero may have either sign. -/
inductive Settles : BinaryOp → Expr → Expr → Expr → Prop
  | zeroAdd {z : Expr} (zero : z.isConstant 0.0 = true) (a : Expr) : Settles .add z a a
  | addZero (a : Expr) {z : Expr} (zero : z.isConstant 0.0 = true) : Settles .add a z a
  | subZero (a : Expr) {z : Expr} (zero : z.isConstant 0.0 = true) : Settles .sub a z a
  | zeroMul {z : Expr} (zero : z.isConstant 0.0 = true) (a : Expr) : Settles .mul z a .zero
  | mulZero (a : Expr) {z : Expr} (zero : z.isConstant 0.0 = true) : Settles .mul a z .zero
  | oneMul {u : Expr} (one : u.isConstant 1.0 = true) (a : Expr) : Settles .mul u a a
  | mulOne (a : Expr) {u : Expr} (one : u.isConstant 1.0 = true) : Settles .mul a u a
  | zeroDiv {z : Expr} (zero : z.isConstant 0.0 = true) (a : Expr) : Settles .div z a .zero
  | divOne (a : Expr) {u : Expr} (one : u.isConstant 1.0 = true) : Settles .div a u a
  | powOne (a : Expr) {u : Expr} (one : u.isConstant 1.0 = true) : Settles .pow a u a
  | powZero (a : Expr) {z : Expr} (zero : z.isConstant 0.0 = true) : Settles .pow a z .one
  | onePow {u : Expr} (one : u.isConstant 1.0 = true) (a : Expr) : Settles .pow u a .one
  | zeroPow {z : Expr} (zero : z.isConstant 0.0 = true) (a : Expr) : Settles .pow z a .zero
  | mulDiv (k : Expr) (x : String) : Settles .div (.bin .mul k (.var x)) (.var x) k
  | mulDivLeft (x : String) (k : Expr) : Settles .div (.bin .mul (.var x) k) (.var x) k

theorem settles_of_identity? {op : BinaryOp} {left right e : Expr}
    (identity : identity? op left right = some e) : Settles op left right e := by
  cases op with
  | add =>
      simp only [identity?] at identity
      split at identity
      · next zero => cases identity; exact .zeroAdd zero _
      · split at identity
        · next zero => cases identity; exact .addZero _ zero
        · cases identity
  | sub =>
      simp only [identity?] at identity
      split at identity
      · next zero => cases identity; exact .subZero _ zero
      · cases identity
  | mul =>
      simp only [identity?, Bool.or_eq_true] at identity
      split at identity
      · next zero =>
          cases identity
          rcases zero with zero | zero
          · exact .zeroMul zero _
          · exact .mulZero _ zero
      · split at identity
        · next one => cases identity; exact .oneMul one _
        · split at identity
          · next one => cases identity; exact .mulOne _ one
          · cases identity
  | div =>
      simp only [identity?] at identity
      split at identity
      · next zero => cases identity; exact .zeroDiv zero _
      · split at identity
        · next one => cases identity; exact .divOne _ one
        · cases identity
  | pow =>
      simp only [identity?] at identity
      split at identity
      · next one => cases identity; exact .powOne _ one
      · split at identity
        · next zero => cases identity; exact .powZero _ zero
        · split at identity
          · next one => cases identity; exact .onePow one _
          · split at identity
            · next zero => cases identity; exact .zeroPow zero _
            · cases identity

theorem settles_of_cancelled? {left right e : Expr} (found : cancelled? left right = some e) :
    Settles .div left right e := by
  unfold cancelled? at found
  split at found
  · next a b x =>
      split at found
      · next same =>
          cases found
          rw [(isVariable_iff x b).1 same]
          exact .mulDiv _ x
      · split at found
        · next same =>
            cases found
            rw [(isVariable_iff x a).1 same]
            exact .mulDivLeft x _
        · cases found
  · cases found

theorem settles_of_reduce {op : BinaryOp} {left right e : Expr}
    (settled : reduce op left right = .settled e) : Settles op left right e := by
  unfold reduce at settled
  split at settled
  · next identity =>
      cases settled
      exact settles_of_identity? identity
  · unfold powerRule at settled
    split at settled
    · split at settled
      · cases settled
      · split at settled
        · cases settled
        · split at settled <;> cases settled
    · split at settled
      · next found =>
          cases settled
          exact settles_of_cancelled? found
      · split at settled <;> cases settled
    · cases settled

/-- What settles an operation by a law is a constant or a part of it. -/
theorem Settles.cases {op : BinaryOp} {left right e : Expr} (settles : Settles op left right e) :
    (∃ value, e = .const value) ∨ e = left ∨ e = right ∨ e ∈ left.children := by
  cases settles with
  | zeroMul | mulZero | zeroDiv | powZero | onePow | zeroPow => exact .inl ⟨_, rfl⟩
  | addZero | subZero | mulOne | divOne | powOne => exact .inr (.inl rfl)
  | zeroAdd | oneMul => exact .inr (.inr (.inl rfl))
  | mulDiv => exact .inr (.inr (.inr List.mem_cons_self))
  | mulDivLeft => exact .inr (.inr (.inr (List.mem_cons_of_mem _ List.mem_cons_self)))

/-- An operation that is settled is folded, or a law settles it. -/
theorem settles_of_nextBinary {strict : Bool} {op : BinaryOp} {left right e : Expr}
    (settled : nextBinary strict op left right = .settle e) :
    (∃ value, foldBinary strict op left right = .value value ∧ e = .const value) ∨
      Settles op left right e := by
  unfold nextBinary at settled
  split at settled
  · next value folded =>
      cases settled
      exact .inl ⟨value, folded, rfl⟩
  · split at settled
    · next reduced =>
        cases settled
        exact .inr (settles_of_reduce reduced)
    · cases settled
    · cases settled

/-- What settles an operation is a constant or a part of it. -/
theorem nextBinary_settle_cases {strict : Bool} {op : BinaryOp} {left right e : Expr}
    (settled : nextBinary strict op left right = .settle e) :
    (∃ value, e = .const value) ∨ e = left ∨ e = right ∨ e ∈ left.children := by
  rcases settles_of_nextBinary settled with ⟨value, -, rfl⟩ | settles
  · exact .inl ⟨value, rfl⟩
  · exact settles.cases

theorem foldedCall?_cases {strict : Bool} {name : String} {arguments : List Expr} {e : Expr}
    (folded : foldedCall? strict name arguments = some e) : ∃ value, e = .const value := by
  unfold foldedCall? at folded
  split at folded
  · next value _ =>
      cases folded
      exact ⟨value, rfl⟩
  · cases folded

theorem negated?_cases {e e' : Expr} (gone : negated? e = some e') :
    (∃ value, e = .const value ∧ e' = .const (-value)) ∨ e = .neg e' := by
  unfold negated? at gone
  split at gone
  · next value =>
      cases gone
      exact .inl ⟨value, rfl, rfl⟩
  · cases gone
    exact .inr rfl
  · cases gone

/-! ### What holds everywhere -/

/-- A node with simplified parts that is kept. -/
def Stands (strict : Bool) : Expr → Prop
  | .const _ | .var _ => True
  | .bin op left right => nextBinary strict op left right = .keep
  | .neg operand => negated? operand = none
  | .call name arguments => foldedCall? strict name arguments = none

section

variable {strict : Bool} {e s : Expr}

theorem everywhere_of_settle {p : Expr → Prop} {op : BinaryOp} {left right : Expr}
    (settled : nextBinary strict op left right = .settle e) (constant : ∀ value, p (.const value))
    (first : Everywhere p left) (second : Everywhere p right) : Everywhere p e := by
  rcases nextBinary_settle_cases settled with ⟨value, rfl⟩ | rfl | rfl | inside
  · exact (everywhere_const value).2 (constant value)
  · exact first
  · exact second
  · exact first.child inside

/-- Nothing in a simplified expression can be simplified further. -/
theorem stands_of_rewrites (rewrites : Rewrites strict e s) : s.Everywhere (Stands strict) := by
  induction rewrites with
  | const value => exact (everywhere_const value).2 trivial
  | var name => exact (everywhere_var name).2 trivial
  | negKept _ kept ih => exact (everywhere_neg _).2 ⟨kept, ih⟩
  | negGone _ gone ih =>
      rcases negated?_cases gone with ⟨value, -, rfl⟩ | rfl
      · exact (everywhere_const _).2 trivial
      · exact ih.operand
  | callKept name parts _ kept ih =>
      refine (everywhere_call name _).2 ⟨kept, ?_⟩
      intro a inside
      obtain ⟨p, among, rfl⟩ := List.mem_map.1 inside
      exact ih p among
  | callFolded name parts _ folded _ =>
      obtain ⟨value, rfl⟩ := foldedCall?_cases folded
      exact (everywhere_const _).2 trivial
  | binKept _ _ kept first second => exact (everywhere_bin _ _ _).2 ⟨kept, first, second⟩
  | binSettled _ _ settled first second =>
      exact everywhere_of_settle settled (fun _ => trivial) first second
  | binAgain _ _ _ _ _ _ ih => exact ih

/-- What holds of all operations and all constants, and of the other nodes of an expression, holds
of what the rules over powers make of it. -/
theorem Regroups.everywhere {p : Expr → Prop} {op : BinaryOp} {left right : Expr}
    (regroups : Regroups op left right e) (constant : ∀ value, p (.const value))
    (binary : ∀ op left right, p (.bin op left right)) (first : Everywhere p left)
    (second : Everywhere p right) : Everywhere p e := by
  have power {x : String} {f a : Expr} (power : PowerOf x f a) (factor : Everywhere p f) :
      p (.var x) ∧ Everywhere p a := by
    cases power with
    | itself => exact ⟨factor.root, (everywhere_const _).2 (constant _)⟩
    | power => exact ⟨factor.left.root, factor.right⟩
  have one : Everywhere p .one := (everywhere_const _).2 (constant _)
  cases regroups with
  | timesQuotient c form =>
      have exponent := power form first
      simp only [everywhere_bin, everywhere_var, binary, true_and]
      exact ⟨second.left, exponent.1, exponent.2, one⟩
  | quotientTimes c form =>
      have exponent := power form second
      simp only [everywhere_bin, everywhere_var, binary, true_and]
      exact ⟨first.left, exponent.1, exponent.2, one⟩
  | timesReciprocal x value c one =>
      simp only [everywhere_bin, binary, true_and]
      exact ⟨first, second.right⟩
  | reciprocalTimes x value c one =>
      simp only [everywhere_bin, binary, true_and]
      exact ⟨second, first.right⟩
  | product formA formB | quotient formA formB =>
      have exponentA := power formA first
      have exponentB := power formB second
      simp only [everywhere_bin, everywhere_var, binary, true_and]
      exact ⟨exponentA.1, exponentA.2, exponentB.2⟩

/-- Simplifying brings no new names: a property of the names of variables and functions, and of the
numbers of arguments, is kept. -/
theorem everywhere_of_rewrites {p : Expr → Prop} (rewrites : Rewrites strict e s)
    (constant : ∀ value, p (.const value)) (binary : ∀ op left right, p (.bin op left right))
    (negation : ∀ a, p (.neg a))
    (call : ∀ name as bs, as.length = bs.length → p (.call name as) → p (.call name bs))
    (everywhere : Everywhere p e) : Everywhere p s := by
  induction rewrites with
  | const value => exact everywhere
  | var name => exact everywhere
  | negKept _ _ ih => exact (everywhere_neg _).2 ⟨negation _, ih everywhere.operand⟩
  | negGone _ gone ih =>
      have operand := ih everywhere.operand
      rcases negated?_cases gone with ⟨value, -, rfl⟩ | rfl
      · exact (everywhere_const _).2 (constant _)
      · exact operand.operand
  | callKept name parts _ _ ih =>
      have count : (parts.map Prod.fst).length = (parts.map Prod.snd).length := by
        rw [List.length_map, List.length_map]
      refine (everywhere_call name _).2 ⟨call _ _ _ count everywhere.root, ?_⟩
      intro a inside
      obtain ⟨p, among, rfl⟩ := List.mem_map.1 inside
      exact ih p among (everywhere.argument (List.mem_map_of_mem among))
  | callFolded name parts _ folded _ =>
      obtain ⟨value, rfl⟩ := foldedCall?_cases folded
      exact (everywhere_const _).2 (constant _)
  | binKept _ _ _ first second =>
      exact (everywhere_bin _ _ _).2
        ⟨binary _ _ _, first everywhere.left, second everywhere.right⟩
  | binSettled _ _ settled first second =>
      exact everywhere_of_settle settled constant (first everywhere.left) (second everywhere.right)
  | binAgain _ _ again _ first second ih =>
      exact ih ((nextBinary_again_cases again).everywhere constant binary
        (first everywhere.left) (second everywhere.right))

end

end Formula.Expr
