import Formula.Proofs.Yard.Groups
import Formula.Proofs.Yard.Images
import Formula.Proofs.Yard.Limit

/-!
Rows inside other rows. A row of tokens that is accepted by itself is accepted between the
parentheses of a group and as an argument of a call, whatever waits around it, and makes the same
part there. A group is read like a variable of its own in its place.
-/

set_option autoImplicit false

namespace Formula

namespace Expr

mutual

def replace (name : String) (e : Expr) : Expr → Expr
  | .const value => .const value
  | .var other => if other = name then e else .var other
  | .bin op left right => .bin op (replace name e left) (replace name e right)
  | .neg operand => .neg (replace name e operand)
  | .call function arguments => .call function (replaceAll name e arguments)

def replaceAll (name : String) (e : Expr) : List Expr → List Expr
  | [] => []
  | a :: rest => replace name e a :: replaceAll name e rest

end

theorem replaceAll_eq_map (name : String) (e : Expr) (es : List Expr) :
    replaceAll name e es = es.map (replace name e) := by
  induction es with
  | nil => rw [replaceAll, List.map_nil]
  | cons a rest ih => rw [replaceAll, ih, List.map_cons]

theorem keepsOperations_replace (name : String) (e : Expr) :
    KeepsOperations (replace name e) where
  const _ := by rw [replace]
  bin _ _ _ := by rw [replace]
  neg _ := by rw [replace]
  call _ _ := by rw [replace, replaceAll_eq_map]

theorem replace_var (name : String) (e : Expr) : replace name e (.var name) = e := by
  rw [replace, if_pos rfl]

theorem replace_ofIdentifier {name other : String} {e : Expr} (differ : other ≠ name) :
    replace name e (.ofIdentifier other) = .ofIdentifier other := by
  rw [ofIdentifier]
  split
  · rw [replace]
  · rw [replace, if_neg differ]

end Expr

namespace Yard

/-- A level on top of finished parts. -/
def Level.on (level : Level) (done : List Expr) : Level :=
  { level with parts := level.parts ++ done }

namespace Levels

/-! ### Runs inside a level -/

/-- The finished parts directly below a level: only the outermost level of a run has some. -/
def partsBelow (done : List Expr) : List (Opening × Level) → List Expr
  | [] => done
  | _ :: _ => []

/-- The levels around the innermost one of a run inside a level. -/
def outerAbove (done : List Expr) (around : List (Opening × Level)) :
    List (Opening × Level) → List (Opening × Level)
  | [] => around
  | (o, level) :: rest => (o, level.on (partsBelow done rest)) :: outerAbove done around rest

/-- The levels of a run inside a level that has finished parts, and others around it. -/
def above (done : List Expr) (around : List (Opening × Level)) (s : Levels) : Levels where
  inner := s.inner.on (partsBelow done s.outer)
  outer := outerAbove done around s.outer
  callee := s.callee

/-- Behind an open parenthesis the run sees nothing but its own parts. -/
theorem above_cons (done : List Expr) (around rest : List (Opening × Level)) (inner : Level)
    (l : Opening × Level) (callee : Option (String × Nat)) :
    above done around ⟨inner, l :: rest, callee⟩ =
      ⟨inner, outerAbove done around (l :: rest), callee⟩ := by
  simp only [above, partsBelow, Level.on, List.append_nil]

variable {previous : Option Lexeme} {opensNext : Bool} {s s' : Levels}

/-- What a token does by itself, it does inside a level. -/
theorem Step.above {t : Token} (step : Step none previous opensNext s t s') (done : List Expr)
    (around : List (Opening × Level)) :
    Step none previous opensNext (s.above done around) t (s'.above done around) := by
  cases step with
  | number _ text position => exact .number _ text position
  | uncalled _ name position stands => exact .uncalled _ name position stands
  | called _ name position opens => exact .called _ name position opens
  | operator _ op position folded =>
      exact .operator _ op position (Operator.foldPreceding_append_parts _ folded)
  | opening _ position room => exact .opening _ position rfl
  | comma inner level rest callee name place opened commas position folded filled =>
      rw [above_cons, above_cons]
      exact .comma inner _ _ callee name place opened commas position folded filled
  | closeGroup inner level rest callee opened position folded =>
      rw [above_cons]
      exact .closeGroup inner _ _ callee opened position folded
  | closeCall inner level rest callee name place opened commas position folded filled =>
      rw [above_cons]
      exact .closeCall inner _ _ callee name place opened commas position folded filled

theorem acceptAll_above (done : List Expr) (around : List (Opening × Level)) (tokens : List Token)
    (accepted : s.acceptAll none previous tokens = .ok s') :
    (s.above done around).acceptAll none previous tokens = .ok (s'.above done around) := by
  induction tokens generalizing previous s with
  | nil =>
      cases accepted
      rfl
  | cons t rest ih =>
      obtain ⟨next, step, accepted⟩ := acceptAll_cons_ok accepted
      rw [acceptAll_cons (accept_of_step (step.above done around))]
      exact ih accepted

/-! ### Runs one after the other -/

/-- The lexeme in front of what follows on a row. -/
def lastOf (previous : Option Lexeme) (ts : List Lexeme) : Option Lexeme := ts.getLast?.or previous

theorem lastOf_cons (t : Lexeme) (ts : List Lexeme) :
    lastOf previous (t :: ts) = lastOf (some t) ts := by
  cases last : ts.getLast? <;> simp [lastOf, List.getLast?_cons, last]

/-- Only behind an identifier it matters whether a parenthesis follows. -/
theorem accept_opensNext (limit : Option Int) (s : Levels) (t : Token)
    (nameless : t.lexeme.isIdentifier = false) (opens opens' : Bool) :
    s.accept limit previous opens t = s.accept limit previous opens' t := by
  obtain ⟨lexeme, position⟩ := t
  cases lexeme with
  | identifier name => cases nameless
  | number _ => rfl
  | operator _ => rfl
  | leftParen => rfl
  | rightParen => rfl
  | comma => rfl

/-- A row may be cut anywhere but between a name and its parenthesis. -/
theorem acceptAll_append (limit : Option Int) (previous : Option Lexeme) (s : Levels)
    (tokens rest : List Token)
    (apart : startsOpen rest = true →
      (tokens.map Token.lexeme).getLast?.any Lexeme.isIdentifier = false) :
    s.acceptAll limit previous (tokens ++ rest) =
      (s.acceptAll limit previous tokens).bind fun s =>
        s.acceptAll limit (lastOf previous (tokens.map Token.lexeme)) rest := by
  induction tokens generalizing previous s with
  | nil => rfl
  | cons t more ih =>
      -- Only the last token before the cut sees another token behind it.
      have same : s.accept limit previous (startsOpen (more ++ rest)) t =
          s.accept limit previous (startsOpen more) t := by
        cases more with
        | cons u more => rfl
        | nil =>
            cases opens : startsOpen rest with
            | false => rw [List.nil_append, opens, startsOpen]
            | true => exact accept_opensNext limit s t (apart opens) _ _
      have apartMore : startsOpen rest = true →
          (more.map Token.lexeme).getLast?.any Lexeme.isIdentifier = false := by
        intro opens
        cases more with
        | nil => rfl
        | cons u more => exact apart opens
      simp only [List.cons_append, acceptAll, same, List.map_cons, lastOf_cons]
      cases s.accept limit previous (startsOpen more) t with
      | error failure => rfl
      | ok next => exact ih _ next apartMore

/-- What is in front of a row only tells whether an operand is expected. -/
theorem acceptAll_previous (limit : Option Int) (previous previous' : Option Lexeme) (s : Levels)
    (tokens : List Token)
    (same : Lexeme.expectsOperand previous = Lexeme.expectsOperand previous') :
    s.acceptAll limit previous tokens = s.acceptAll limit previous' tokens := by
  cases tokens with
  | nil => rfl
  | cons t rest =>
      have first : s.accept limit previous (startsOpen rest) t =
          s.accept limit previous' (startsOpen rest) t := by
        simp only [accept, Lexeme.operatorAfter, same]
      rw [acceptAll, first, acceptAll]

/-- A row that is accepted by itself fills a level. -/
theorem fills_of_parse {tokens : List Token} {e : Expr} (parsed : parse none tokens = .ok e) :
    Fills (tokens.map Token.lexeme) e := by
  intro inside rest previous s written expects closed settled fresh
  obtain ⟨⟨ops, below⟩, around, callee⟩ := s
  cases settled
  cases fresh
  -- The same lexemes may be elsewhere now.
  have accepted : parse none inside = .ok e := by
    rw [← toOption_eq_some, parse_eq_outcome, written, ← parse_eq_outcome, parsed]
    rfl
  obtain ⟨last, run, finished⟩ := parse_ok accepted
  obtain ⟨folded, whole⟩ := finish_ok finished
  have settled := acceptAll_callee none none {} last inside (.inl rfl) run
  obtain ⟨⟨waiting, parts⟩, outer, callee⟩ := last
  cases whole
  cases settled
  refine ⟨waiting, parts, lastOf previous (inside.map Token.lexeme), folded, ?_⟩
  rw [acceptAll_append none previous _ inside rest (by rw [closed]; intro opens; cases opens),
    acceptAll_previous none previous none _ inside expects]
  exact congrArg (Except.bind · _) (acceptAll_above below around inside run)

theorem fills_of_ofTokens {limit : Option Int} {tokens : List Token} {e : Expr}
    (accepted : Expr.ofTokens limit tokens = .ok e) : Fills (tokens.map Token.lexeme) e := by
  rw [ofTokens_eq_parse] at accepted
  exact fills_of_parse (parse_unlimited limit tokens e accepted)

/-- Rows that are accepted by themselves are the arguments of a call. -/
theorem parse_call (name : String) (arguments : List (List Token × Expr))
    (fills : ∀ a ∈ arguments, Fills (a.1.map Token.lexeme) a.2) (tokens : List Token)
    (written : tokens.map Token.lexeme = .identifier name :: .leftParen ::
      [Lexeme.comma].intercalate (arguments.map fun a => a.1.map Token.lexeme) ++ [.rightParen]) :
    parse none tokens = .ok (.call name (arguments.map Prod.snd)) := by
  let rows := arguments.map fun a => (a.1.map Token.lexeme, a.2)
  have rowsWritten : tokens.map Token.lexeme = .identifier name :: .leftParen ::
      [Lexeme.comma].intercalate (rows.map Prod.fst) ++ [.rightParen] := by
    rw [written, List.map_map]
    rfl
  have read := acceptAll_call name rows (List.forall_mem_map.2 fills) {} none tokens []
    rowsWritten rfl
  rw [List.append_nil, List.map_map] at read
  rw [parse, read]
  rfl

/-! ### A group and a variable in its place -/

theorem outcome_append (s : Levels) (ts us : List Lexeme)
    (apart : ts.getLast?.any Lexeme.isIdentifier = false) :
    s.outcome previous (ts ++ us) =
      (s.acceptAll none previous (ts.map .ofLexeme)).toOption.bind fun s =>
        s.outcome (lastOf previous ts) us := by
  have cut := acceptAll_append none previous s (ts.map .ofLexeme) (us.map .ofLexeme)
    (fun _ => by rw [map_lexeme_ofLexeme]; exact apart)
  rw [map_lexeme_ofLexeme] at cut
  rw [outcome, List.map_append, cut]
  cases s.acceptAll none previous (ts.map .ofLexeme) <;> rfl

theorem outcome_group {ts : List Lexeme} {e : Expr} (fills : Fills ts e) (s : Levels)
    (us : List Lexeme) (settled : s.callee = none) :
    s.outcome previous (.leftParen :: ts ++ .rightParen :: us) =
      (s.putPart e).outcome (some .rightParen) us := by
  let row : List Lexeme := .leftParen :: ts ++ [.rightParen]
  have read := acceptAll_group fills s previous (row.map .ofLexeme) (us.map .ofLexeme)
    (map_lexeme_ofLexeme row) settled
  rw [outcome, outcome, List.append_cons, List.map_append, read]

theorem outcome_variable {name : String} (free : reserved? name = none) (s : Levels)
    (us : List Lexeme) (closed : us.head? ≠ some .leftParen) :
    s.outcome previous (.identifier name :: us) =
      (s.putPart (.var name)).outcome (some .rightParen) us := by
  have stands : startsOpen (us.map .ofLexeme) = false := by
    cases us with
    | nil => rfl
    | cons u us => simpa [startsOpen, Token.ofLexeme] using closed
  have put : s.accept none previous (startsOpen (us.map .ofLexeme))
      (.ofLexeme (.identifier name)) = .ok (s.putPart (.var name)) := by
    rw [stands]
    simp only [accept, Token.ofLexeme, putIdentifier, Bool.false_eq_true, ↓reduceIte,
      Expr.ofIdentifier, free]
  have run : (s.putPart (.var name)).acceptAll none (some (.identifier name)) (us.map .ofLexeme) =
      (s.putPart (.var name)).acceptAll none (some .rightParen) (us.map .ofLexeme) :=
    acceptAll_previous none _ _ _ _ rfl
  rw [outcome, outcome, List.map_cons, acceptAll_cons put, ← run]
  rfl

/-- A function that keeps the identifiers of a row keeps all parts that the row leaves. -/
theorem image_of_acceptAll {f : Expr → Expr} (keeps : Expr.KeepsOperations f) (ts : List Lexeme)
    (kept : ∀ t ∈ ts, Expr.KeepsIdentifier f t)
    (accepted : acceptAll none none {} (ts.map .ofLexeme) = .ok s) : s.image f = s := by
  have run := acceptAll_image keeps none {} (ts.map .ofLexeme)
    (by rw [map_lexeme_ofLexeme]; exact kept)
  have start : ({} : Levels).image f = {} := rfl
  rw [start, map_lexeme_ofLexeme, accepted] at run
  exact (Option.some.inj run).symm

/-- Behind the same row, what follows a group has the outcome that it has behind a variable, with
the part of the group in place of the variable. -/
theorem outcome_replace {ss : List Lexeme} {e : Expr} (fills : Fills ss e) {name : String}
    (free : reserved? name = none) (ps qs : List Lexeme)
    (absent : .identifier name ∉ ps ++ qs)
    (apart : ps.getLast?.any Lexeme.isIdentifier = false) (closed : qs.head? ≠ some .leftParen) :
    outcome none {} (ps ++ (.leftParen :: ss ++ .rightParen :: qs)) =
      (outcome none {} (ps ++ .identifier name :: qs)).map (Expr.replace name e) := by
  have keeps := Expr.keepsOperations_replace name e
  have kept : ∀ t ∈ ps ++ qs, Expr.KeepsIdentifier (Expr.replace name e) t := by
    rintro t inside other rfl
    exact Expr.replace_ofIdentifier (fun same => absent (same ▸ inside))
  rw [outcome_append {} ps _ apart, outcome_append {} ps _ apart]
  cases accepted : acceptAll none none {} (ps.map .ofLexeme) with
  | error failure => rfl
  | ok s =>
      have settled := acceptAll_callee none none {} s _ (.inl rfl) accepted
      -- Replacing the variable leaves the parts in front alone and turns it into the group's part,
      -- so what follows the group runs on the image of what follows the variable.
      have unchanged : s.image (Expr.replace name e) = s :=
        image_of_acceptAll keeps ps (fun t inside => kept t (List.mem_append_left qs inside))
          accepted
      have image := outcome_image keeps (some .rightParen) (s.putPart (.var name))
        (qs.map .ofLexeme) 0
        (by rw [map_lexeme_ofLexeme]; exact fun t inside => kept t (List.mem_append_right ps inside))
      rw [map_lexeme_ofLexeme, image_putPart, unchanged, Expr.replace_var] at image
      simp only [toOption_ok, Option.bind_some]
      rw [outcome_group fills s qs settled, outcome_variable free s qs closed, image]
      rfl

end Levels

end Yard

/-- A row that is accepted by itself may stand inside other rows: as an argument of a call, and
in a group that has the place of a variable. -/
theorem ofTokens_isolated (limit : Int) :
    (∀ (name : String) (arguments : List (List Token × Expr)) (tokens : List Token),
      (∀ a ∈ arguments, ∃ bound, Expr.ofTokens bound a.1 = .ok a.2) →
      tokens.map Token.lexeme = .identifier name :: .leftParen ::
        [Lexeme.comma].intercalate (arguments.map fun a => a.1.map Token.lexeme) ++
          [.rightParen] →
      Lexeme.nesting (tokens.map Token.lexeme) ≤ limit →
      Expr.ofTokens (some limit) tokens = .ok (.call name (arguments.map Prod.snd))) ∧
    ∀ (inside : List Token) (part : Expr) (ps qs : List Lexeme) (name : String)
      (grouped named : List Token),
      (∃ bound, Expr.ofTokens bound inside = .ok part) →
      ps.getLast?.any Lexeme.isIdentifier = false → qs.head? ≠ some .leftParen →
      reserved? name = none → .identifier name ∉ ps ++ qs →
      grouped.map Token.lexeme =
        ps ++ .leftParen :: inside.map Token.lexeme ++ .rightParen :: qs →
      named.map Token.lexeme = ps ++ .identifier name :: qs →
      Lexeme.nesting (grouped.map Token.lexeme) ≤ limit →
      Lexeme.nesting (named.map Token.lexeme) ≤ limit →
      ∀ e, Expr.ofTokens (some limit) grouped = .ok e ↔
        ∃ e', Expr.ofTokens (some limit) named = .ok e' ∧ Expr.replace name part e' = e := by
  constructor
  · intro name arguments tokens accepted written within
    rw [Yard.Levels.ofTokens_eq_parse, Yard.Levels.parse_of_nesting_le limit tokens within]
    refine Yard.Levels.parse_call name arguments ?_ tokens written
    intro a among
    obtain ⟨bound, accepted⟩ := accepted a among
    exact Yard.Levels.fills_of_ofTokens accepted
  · intro inside part ps qs name grouped named ⟨bound, accepted⟩ apart closed free absent
      writtenGrouped writtenNamed withinGrouped withinNamed e
    have same := Yard.Levels.outcome_replace (Yard.Levels.fills_of_ofTokens accepted) free ps qs
      absent apart closed
    rw [← List.append_assoc, ← writtenGrouped, ← writtenNamed, ← Yard.Levels.parse_eq_outcome,
      ← Yard.Levels.parse_eq_outcome] at same
    rw [Yard.Levels.ofTokens_eq_parse, Yard.Levels.parse_of_nesting_le limit _ withinGrouped,
      Yard.Levels.ofTokens_eq_parse, Yard.Levels.parse_of_nesting_le limit _ withinNamed,
      ← toOption_eq_some, same, Option.map_eq_some_iff]
    simp only [toOption_eq_some]

/-- The row `x y +` as an argument in `f(x y +, w)` and as a group in `w * (x y +) ^ w`. -/
theorem ofTokens_isolated_sum :
    Expr.ofTokens (some 1)
        [⟨.identifier "f", 0⟩, ⟨.leftParen, 1⟩, ⟨.identifier "x", 2⟩, ⟨.identifier "y", 4⟩,
          ⟨.operator .add, 6⟩, ⟨.comma, 7⟩, ⟨.identifier "w", 9⟩, ⟨.rightParen, 10⟩] =
      .ok (.call "f" [.bin .add (.var "x") (.var "y"), .var "w"]) ∧
    Expr.ofTokens (some 1)
        [⟨.identifier "w", 0⟩, ⟨.operator .mul, 2⟩, ⟨.leftParen, 4⟩, ⟨.identifier "x", 5⟩,
          ⟨.identifier "y", 7⟩, ⟨.operator .add, 9⟩, ⟨.rightParen, 10⟩, ⟨.operator .pow, 12⟩,
          ⟨.identifier "w", 14⟩] =
      .ok (.bin .mul (.var "w") (.bin .pow (.bin .add (.var "x") (.var "y")) (.var "w"))) := by
  let sum : List Token := [⟨.identifier "x", 0⟩, ⟨.identifier "y", 2⟩, ⟨.operator .add, 4⟩]
  have sumAccepted : Expr.ofTokens none sum = .ok (.bin .add (.var "x") (.var "y")) := rfl
  have wAccepted : Expr.ofTokens none [⟨.identifier "w", 0⟩] = .ok (.var "w") := rfl
  obtain ⟨asArgument, asGroup⟩ := ofTokens_isolated 1
  constructor
  · refine asArgument "f" [(sum, _), ([⟨.identifier "w", 0⟩], _)] _ ?_ rfl (by decide)
    intro a among
    rcases List.mem_pair.1 among with rfl | rfl
    · exact ⟨none, sumAccepted⟩
    · exact ⟨none, wAccepted⟩
  · exact (asGroup sum _ [.identifier "w", .operator .mul] [.operator .pow, .identifier "w"] "z" _
      [⟨.identifier "w", 0⟩, ⟨.operator .mul, 2⟩, ⟨.identifier "z", 4⟩, ⟨.operator .pow, 6⟩,
        ⟨.identifier "w", 8⟩] ⟨none, sumAccepted⟩ rfl (by decide) rfl (by decide) rfl rfl
      (by decide) (by decide) _).2 ⟨_, rfl, rfl⟩

end Formula
