import Formula.Parse
import Formula.Proofs.Log
import Formula.Proofs.Simplify.Folding
import Formula.Proofs.Simplify.NormalForm

/-!
The records of the simplifier. It writes about attempts to fold and nothing else, and neither the
expressions nor the order in which it meets them depend on what is logged. Warnings are about refused
folds, and plain arithmetic refuses none.
-/

set_option autoImplicit false

namespace Formula.Expr

/-! ### Attempts to fold -/

section

variable {strict : Bool} {failure : Failure}

theorem strict_of_foldBinary {op : BinaryOp} {left right : Expr}
    (refused : foldBinary strict op left right = .refused failure) : strict = true := by
  cases strict with
  | true => rfl
  | false =>
      unfold foldBinary at refused
      split at refused
      · rw [BinaryOp.value_plain] at refused
        cases refused
      · cases refused

/-- In plain arithmetic a built-in function has a value at as many constants as it takes. -/
theorem evaluate_constants_plain {f : Builtin} {values : List Float}
    (fits : f.argumentCount = values.length) :
    ∃ v, evaluate false .empty (.call f.name (values.map .const)) = .ok v := by
  obtain ⟨result, applied⟩ := Builtin.evaluator_ok fits
  have takes : f.argumentCount = (values.map Expr.const).length := by
    rw [List.length_map]
    exact fits
  refine ⟨result, ?_⟩
  rw [evaluate_builtin takes (evaluateAll_constants false .empty values) applied]
  exact checkOverflow_plain _ _ _

theorem strict_of_foldCall {name : String} {arguments : List Expr}
    (refused : foldCall strict name arguments = .refused failure) : strict = true := by
  cases strict with
  | true => rfl
  | false =>
      unfold foldCall foldValues at refused
      split at refused
      · cases refused
      · next values constants =>
          split at refused
          · cases refused
          · next f found =>
              split at refused
              · next fits =>
                  obtain ⟨v, value⟩ := evaluate_constants_plain fits
                  rw [← Builtin.name_of_ofName? found, value] at refused
                  simp only at refused
                  split at refused <;> cases refused
              · cases refused

end

section

variable (strict : Bool) (level : Level)

theorem binaryRecords_eq (op : BinaryOp) (left right : Expr) :
    binaryRecords strict level op left right =
      (foldBinary strict op left right).records level (render (.bin op left right)) := by
  unfold binaryRecords
  cases foldBinary strict op left right <;> rfl

theorem callRecords_eq (name : String) (arguments : List Expr) :
    callRecords strict level name arguments =
      (foldCall strict name arguments).records level (foldedCallText name arguments) := by
  unfold callRecords
  cases foldCall strict name arguments <;> rfl

end

/-- A refused fold is warned about, and one outside the domain is noted. -/
theorem Folding.writes (general : Level) {warns : Prop} (folding : Folding) (text : String)
    (due : ∀ failure, folding = .refused failure → warns) :
    Writes general warns fun level => folding.records level text := by
  cases folding with
  | none | value => exact .nothing
  | refused failure => exact .warning _ (due failure rfl)
  | outsideDomain => exact .debug _

section

variable (general : Level) (strict : Bool)

theorem writes_binaryRecords (op : BinaryOp) (left right : Expr) :
    Writes general (strict = true) fun level => binaryRecords strict level op left right := by
  simp only [binaryRecords_eq]
  exact Folding.writes general _ _ fun _ => strict_of_foldBinary

theorem writes_callRecords (name : String) (arguments : List Expr) :
    Writes general (strict = true) fun level => callRecords strict level name arguments := by
  simp only [callRecords_eq]
  exact Folding.writes general _ _ fun _ => strict_of_foldCall

end

/-! ### Runs -/

section

variable (strict : Bool) (level : Level)

theorem records_simplify_neg (a : Expr) :
    (simplify strict level (.neg a)).records = (simplify strict level a).records := by
  simp only [simplify_neg]
  cases negated? (simplify strict level a).tree <;> rfl

theorem records_simplify_call (name : String) (arguments : List Expr) :
    (simplify strict level (.call name arguments)).records =
      (simplifyAll strict level arguments).records ++
        callRecords strict level name (simplifyAll strict level arguments).trees := by
  simp only [simplify_call]
  cases foldedCall? strict name (simplifyAll strict level arguments).trees <;> rfl

theorem records_simplify_bin (op : BinaryOp) (left right : Expr) :
    (simplify strict level (.bin op left right)).records =
      (simplify strict level left).records ++ (simplify strict level right).records ++
          binaryRecords strict level op (simplify strict level left).tree
            (simplify strict level right).tree ++
        match nextBinary strict op (simplify strict level left).tree
            (simplify strict level right).tree with
        | .again e => (simplify strict level e).records
        | _ => [] := by
  simp only [simplify_bin]
  cases nextBinary strict op (simplify strict level left).tree
    (simplify strict level right).tree <;> simp only [List.append_nil]

theorem records_simplifyAll (es : List Expr) :
    (simplifyAll strict level es).records = es.flatMap fun e => (simplify strict level e).records := by
  induction es with
  | nil => rw [simplifyAll_nil, List.flatMap_nil]
  | cons e rest ih => rw [simplifyAll_cons, List.flatMap_cons, ← ih]

end

section

variable {strict : Bool}

theorem trees_of_rewrites (level : Level) {parts : List (Expr × Expr)}
    (each : ∀ p ∈ parts, Rewrites strict p.1 p.2) :
    (simplifyAll strict level (parts.map Prod.fst)).trees = parts.map Prod.snd :=
  trees_of_parts fun p inside => tree_of_rewrites level (each p inside)

theorem writes_of_rewrites (general : Level) {e s : Expr} (rewrites : Rewrites strict e s) :
    Writes general (strict = true) fun level => (simplify strict level e).records := by
  -- At every level the parts become the same trees, so the same folds are attempted.
  induction rewrites with
  | const value =>
      simp only [simplify_const]
      exact .nothing
  | var name =>
      simp only [simplify_var]
      exact .nothing
  | negKept _ _ ih | negGone _ _ ih =>
      simp only [records_simplify_neg]
      exact ih
  | callKept name parts each _ ih | callFolded name parts each _ ih =>
      simp only [records_simplify_call, records_simplifyAll, trees_of_rewrites _ each,
        List.flatMap_map]
      exact .append (.flatMap parts ih) (writes_callRecords general strict name _)
  | binKept first second next earlier later | binSettled first second next earlier later =>
      simp only [records_simplify_bin, tree_of_rewrites _ first, tree_of_rewrites _ second, next]
      exact .append (.append (.append earlier later) (writes_binaryRecords general strict _ _ _))
        .nothing
  | binAgain first second again _ earlier later more =>
      simp only [records_simplify_bin, tree_of_rewrites _ first, tree_of_rewrites _ second, again]
      exact .append (.append (.append earlier later) (writes_binaryRecords general strict _ _ _))
        more

end

section

variable (general : Level) (strict : Bool)

theorem writes_simplify (e : Expr) :
    Writes general (strict = true) fun level => (simplify strict level e).records :=
  writes_of_rewrites general (rewrites_simplify strict .silent e)

theorem tree_simplify_level (level other : Level) (e : Expr) :
    (simplify strict level e).tree = (simplify strict other e).tree :=
  tree_of_rewrites level (rewrites_simplify strict other e)

theorem unchanged_iff (level : Level) (e : Expr) :
    (simplify strict level e).changed = false ↔ (simplify strict level e).tree = e := by
  refine ⟨tree_eq_of_unchanged e, fun same => ?_⟩
  have stands := stands_of_rewrites (rewrites_simplify strict level e)
  exact (simplify_of_stands level e (same ▸ stands)).2

theorem changed_simplify_level (level other : Level) (e : Expr) :
    (simplify strict level e).changed = (simplify strict other e).changed := by
  rw [← Bool.not_inj_iff, Bool.eq_iff_iff, Bool.not_eq_true', Bool.not_eq_true', unchanged_iff,
    unchanged_iff, tree_simplify_level strict level other]

end

/-! ### Parses -/

section

variable (general : Level) (strict : Bool) (limit : Int)

theorem value_parseTokens_level (level other : Level) (ts : List Token) :
    (parseTokens strict level limit ts).value = (parseTokens strict other limit ts).value := by
  unfold parseTokens
  cases ofTokens (some limit) ts with
  | error failure => rfl
  | ok e =>
      dsimp only
      cases checkDepth limit e with
      | error failure => rfl
      | ok _ => exact congrArg Except.ok (tree_simplify_level strict level other e)

theorem writes_parseTokens (ts : List Token) :
    Writes general (strict = true) fun level => (parseTokens strict level limit ts).records := by
  unfold parseTokens
  cases ofTokens (some limit) ts with
  | error failure => exact .nothing
  | ok e =>
      dsimp only
      cases checkDepth limit e with
      | error failure => exact .nothing
      | ok _ => exact writes_simplify general strict e

theorem value_parse_level (level other : Level) (text : String) :
    (parse strict level limit text).value = (parse strict other limit text).value := by
  unfold parse
  cases tokens text with
  | error failure => rfl
  | ok ts => exact value_parseTokens_level strict limit level other ts

/-- A parse notes the scan, also if the tokens are then rejected. -/
theorem writes_parse (text : String) :
    Writes general (strict = true) fun level => (parse strict level limit text).records := by
  unfold parse
  cases tokens text with
  | error failure => exact .nothing
  | ok ts => exact .append (.debug _) (writes_parseTokens general strict limit ts)

end

end Formula.Expr
