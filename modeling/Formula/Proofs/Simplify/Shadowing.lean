import Formula.Function.Stock
import Formula.Parse
import Formula.Proofs.Decimal.Signs
import Formula.Proofs.Simplify.Folding

/-!
Functions that hide built-in ones. Evaluation looks for a function in the context first and then among
the built-in ones, but a call is folded before there is a context, with the built-in function of its
name. So the value of a call survives simplification in the contexts whose own functions agree with the
built-in ones that they hide, and in no others.
-/

set_option autoImplicit false

namespace Formula

/-- What the context has under a name, if anything, agrees with the built-in function of the name: on
as many arguments as the built-in function takes, it has no other value than this function has there,
unless the arguments lie outside its domain. -/
def Context.KeepsBuiltin (c : Context) (name : String) : Prop :=
  ∀ (f : Builtin) (g : Function) (values : List Float) (own hidden : Float), f.name = name →
    c.functions.get? name = some g → f.argumentCount = values.length →
    g.arity.accepts values.length = true → g.evaluator values = .ok own →
    f.evaluator values = .ok hidden → (hidden.isNaN = true → values.any Float.isNaN = true) →
    own = hidden

namespace Expr

variable {c : Context}

/-- A node that is no operation between two operands, and calls functions of certain names only. -/
def IsOperationFree (names : String → Prop) : Expr → Prop
  | .bin .. => False
  | .call name _ => names name
  | .const _ | .var _ | .neg _ => True

/-- What a folded call is replaced with: the value of the built-in function, which is no number only if
an argument is none. -/
theorem foldedCall?_eq_some {name : String} {arguments : List Expr} {e : Expr}
    (folded : foldedCall? false name arguments = some e) :
    ∃ (f : Builtin) (values : List Float) (v : Float), f.name = name ∧
      arguments = values.map .const ∧ f.argumentCount = values.length ∧
      f.evaluator values = .ok v ∧ (v.isNaN = true → values.any Float.isNaN = true) ∧
      e = .const v := by
  unfold foldedCall? at folded
  split at folded
  · next v folding =>
      cases folded
      obtain ⟨f, values, rfl, rfl, fits, value⟩ := foldCall_eq_value folding
      obtain ⟨result, applied⟩ := Builtin.evaluator_ok fits
      have count : f.argumentCount = (values.map Expr.const).length := by
        rw [List.length_map]
        exact fits
      rw [evaluate_builtin count (evaluateAll_constants false .empty values) applied] at value
      cases value
      exact ⟨f, values, v, rfl, rfl, fits, applied, inDomain_of_foldCall folding, rfl⟩
  · cases folded

theorem keepsBuiltin_of_simplify {name : String} (level : Level)
    (keeps : ∀ (values : List Float) v, evaluate false c (.call name (values.map .const)) = .ok v →
      evaluate false c (simplify false level (.call name (values.map .const))).tree = .ok v) :
    c.KeepsBuiltin name := by
  rintro f g values own hidden rfl found count accepts applied value inDomain
  -- The call on just these values evaluates to the one value and is folded to the other.
  have fits : f.argumentCount = (values.map Expr.const).length := by
    rw [List.length_map]
    exact count
  have accepted : g.arity.accepts (values.map Expr.const).length = true := by
    rw [List.length_map]
    exact accepts
  have constants := evaluateAll_constants false c values
  have evaluated : evaluate false c (.call f.name (values.map .const)) = .ok own :=
    evaluate_call_eq_ok.2 ⟨g, Context.resolve_own found, accepted, values, constants, own, applied,
      checkOverflow_plain _ _ _⟩
  have builtin : evaluate false .empty (.call f.name (values.map .const)) = .ok hidden := by
    rw [evaluate_builtin fits (evaluateAll_constants false .empty values) value]
    rfl
  have simplified := keeps values own evaluated
  have arguments : (simplifyAll false level (values.map .const)).trees = values.map .const := by
    rw [trees_simplifyAll, List.map_map]
    apply List.map_congr_left
    intro value _
    simp only [Function.comp_apply, simplify_const]
  rw [tree_simplify_call, arguments, foldedCall?_constants count builtin inDomain] at simplified
  exact (Except.ok.inj simplified).symm

/-- An expression without operations keeps its value, if the context keeps the built-in functions
whose names it calls. -/
theorem evaluate_simplify {names : String → Prop} (keeps : ∀ name, names name → c.KeepsBuiltin name)
    (level : Level) (e : Expr) (free : e.Everywhere (IsOperationFree names)) {v : Float}
    (evaluated : evaluate false c e = .ok v) :
    evaluate false c (simplify false level e).tree = .ok v := by
  induction e using Expr.induction generalizing v with
  | const value =>
      rw [simplify_const]
      exact evaluated
  | var x =>
      rw [simplify_var]
      exact evaluated
  | bin op left right _ _ => exact free.root.elim
  | neg a ih =>
      obtain ⟨x, operand, rfl⟩ := evaluate_neg_eq_ok.1 evaluated
      have kept := ih free.operand operand
      rw [tree_simplify_neg]
      cases gone : negated? (simplify false level a).tree with
      | none => exact evaluate_neg_eq_ok.2 ⟨x, kept, rfl⟩
      | some e =>
          rcases negated?_cases gone with ⟨value, constant, rfl⟩ | double
          · rw [constant] at kept
            cases kept
            rfl
          · rw [double] at kept
            obtain ⟨y, inner, rfl⟩ := evaluate_neg_eq_ok.1 kept
            rw [Decimal.neg_twice]
            exact inner
  | call name arguments ih =>
      obtain ⟨d, found, fits, values, parts, result, applied, passed⟩ :=
        evaluate_call_eq_ok.1 evaluated
      have kept : evaluateAll false c (simplifyAll false level arguments).trees = .ok values := by
        rw [trees_simplifyAll]
        exact evaluateAll_map _ arguments
          (fun a inside x value => ih a inside (free.argument inside) value) parts
      rw [tree_simplify_call]
      cases folded : foldedCall? false name (simplifyAll false level arguments).trees with
      | none =>
          rw [← length_evaluateAll parts, length_evaluateAll kept] at fits
          exact evaluate_call_eq_ok.2 ⟨d, found, fits, values, kept, result, applied, passed⟩
      | some e =>
          obtain ⟨f, constants, hidden, rfl, trees, count, value, inDomain, rfl⟩ :=
            foldedCall?_eq_some folded
          rw [trees, evaluateAll_constants] at kept
          cases kept
          cases passed
          rw [← length_evaluateAll parts] at fits
          -- The value of the call is that of the function of the context or of the built-in one.
          rcases Context.resolve_builtin found with own | rfl
          · have same := keeps f.name free.root f d values v hidden rfl own count fits applied value
              inDomain
            rw [same]
            rfl
          · exact value.symm.trans applied

/-- Simplifying keeps the values of the expressions without operations, in plain arithmetic, exactly if
the context keeps the built-in functions whose names they may call. Then an expression that was parsed
has the value of the one that its text writes. -/
theorem simplify_keeps_iff (c : Context) (names : String → Prop) :
    ((∀ (level : Level) (e : Expr) (v : Float), e.Everywhere (IsOperationFree names) →
        evaluate false c e = .ok v → evaluate false c (simplify false level e).tree = .ok v) ↔
      ∀ name, names name → c.KeepsBuiltin name) ∧
    ((∀ name, names name → c.KeepsBuiltin name) →
      ∀ (level : Level) (limit : Int) (text : String) (e t : Expr) (v : Float),
        parseRaw (some limit) text = .ok e → (parse false level limit text).value = .ok t →
        e.Everywhere (IsOperationFree names) → evaluate false c e = .ok v →
        evaluate false c t = .ok v) := by
  refine ⟨⟨fun keeps name named => ?_, fun keeps level e v free => ?_⟩, ?_⟩
  · apply keepsBuiltin_of_simplify .silent
    intro values v
    apply keeps
    simp [IsOperationFree, named]
  · exact evaluate_simplify keeps level e free
  · intro keeps level limit text e t v raw parsed free evaluated
    obtain ⟨e', raw', -, rfl⟩ := parse_eq_ok.1 parsed
    cases raw.symm.trans raw'
    exact evaluate_simplify keeps level e free evaluated

/-- A function `max` that is always 42 is hidden by the built-in one when `max(1, 2)` is parsed. -/
theorem parse_hidden_maximum :
    let answer : Function := ⟨"max", .exactly 2, Evaluator.constant 42.0, none, by decide⟩
    let c := Context.mk .empty (.ofList [("max", answer)])
    let e : Expr := .call "max" [.const 1.0, .const 2.0]
    parseRaw (some 100) "max(1, 2)" = .ok e ∧ evaluate false c e = .ok 42.0 ∧
      (parse false .silent 100 "max(1, 2)").value = .ok (simplify false .silent e).tree ∧
      evaluate false c (simplify false .silent e).tree = .ok 2.0 := by
  intro answer c e
  have scanned : Token.scan "max(1, 2)" = .ok [⟨.identifier "max", 0⟩, ⟨.leftParen, 3⟩,
      ⟨.number "1", 4⟩, ⟨.comma, 5⟩, ⟨.number "2", 7⟩, ⟨.rightParen, 8⟩] := by
    decide +kernel
  have raw : parseRaw (some 100) "max(1, 2)" = .ok e := by
    rw [parseRaw, tokens, scanned]
    rfl
  have shallow : checkDepth 100 e = .ok () := by
    rw [checkDepth, depth_eq_height]
    rfl
  refine ⟨raw, rfl, parse_eq_ok.2 ⟨e, raw, shallow, rfl⟩, ?_⟩
  have folded : foldedCall? false "max" [.const 1.0, .const 2.0] = some (.const 2.0) := rfl
  simp only [e, tree_simplify_call, trees_simplifyAll, List.map_cons, List.map_nil, simplify_const,
    folded]
  rfl

end Expr

end Formula
