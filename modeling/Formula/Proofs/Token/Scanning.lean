import Formula.Proofs.Token.Segmentation

/-!
Scanning step by step. Where no identifier and no number goes on, the scan drops a blank, takes a token
that stands there, or fails because the text offends there, and so its outcome is known: either the
tokens are the segmentation of the text, and nothing in the text offends, or the failure is the first
thing that does. The tokens of a text can be scanned again from their own texts with blanks between
them.
-/

set_option autoImplicit false

namespace Formula.Token

/-- A lexeme that a scan can give. -/
def IsLegal : Lexeme → Prop
  | .number text => text.toList.all isNumberPart = true ∧ isNumber text.toList = true
  | .identifier name => isIdentifier name = true
  | .operator _ | .leftParen | .rightParen | .comma => True

/-! ### Tokens do not offend -/

section

variable {cs : List Char} {i : Nat} {cause : Malformation}

theorem not_offends_of_blank {c : Char} (found : cs[i]? = some c) (blank : Text.isBlank c = true) :
    ¬ Offends cs cause i := by
  intro offends
  cases offends with
  | character found' _ _ notBlank _ =>
      cases found.symm.trans found'
      rw [blank] at notBlank
      cases notBlank
  | number run _ =>
      have part := (run.inside i (Nat.le_refl i) run.nonempty).1
      rw [holdsAt_of_get found] at part
      have notBlank := not_isBlank_of_isNumberPart part
      rw [blank] at notBlank
      cases notBlank

theorem not_offends_of_covered {t : Token} (stands : t.Stands cs) (legal : IsLegal t.lexeme)
    (covers : t.Covers i) : ¬ Offends cs cause i := by
  intro offends
  cases offends with
  | character found noName noNumber notBlank noSign =>
      rcases lexeme_cases t.lexeme with ⟨text, number⟩ | ⟨name, identifier⟩ | sign
      · exact noNumber (stands.inNumber number covers)
      · exact noName (stands.inIdentifier identifier covers)
      · obtain ⟨-, c, found', sign'⟩ := stands.sign sign
        rw [(stands.sign_outside sign covers).1, found'] at found
        cases found
        exact noSign (mem_signs_of_ofSign? sign')
  | number run malformed =>
      have inside := run.inside i (Nat.le_refl i) run.nonempty
      rcases lexeme_cases t.lexeme with ⟨text, number⟩ | ⟨name, identifier⟩ | sign
      · obtain ⟨first, last⟩ := (stands.number text number).eq_of_meet run
          covers.1 covers.2 (Nat.le_refl i) run.nonempty
        rw [number] at legal
        rw [← first, ← last, stands.spelled, Token.text, number, Lexeme.text, legal.2] at malformed
        cases malformed
      · exact inside.2 (stands.inIdentifier identifier covers)
      · exact (stands.sign_outside sign covers).2.2 inside

theorem not_offends_of_end (behind : cs.length ≤ i) : ¬ Offends cs cause i := by
  have missing : cs[i]? = none := List.getElem?_eq_none behind
  intro offends
  cases offends with
  | character found _ _ _ _ =>
      rw [missing] at found
      cases found
  | number run _ =>
      obtain ⟨c, found, -⟩ := get_of_holdsAt (run.inside i (Nat.le_refl i) run.nonempty).1
      rw [missing] at found
      cases found

end

/-! ### One step -/

section

variable {cs : List Char} {i : Nat} {c : Char}

/-- What the scan does at a boundary. -/
inductive Step (cs : List Char) (i : Nat) : Prop
  | blank {c : Char} (found : cs[i]? = some c) (blank : Text.isBlank c = true)
      (boundary : IsBoundary cs (i + 1))
      (scanned : scanFrom i (cs.drop i) = scanFrom (i + 1) (cs.drop (i + 1)))
  | token (t : Token) (here : t.position = i) (stands : t.Stands cs) (legal : IsLegal t.lexeme)
      (boundary : IsBoundary cs t.stop)
      (scanned : scanFrom i (cs.drop i) = followedBy t (scanFrom t.stop (cs.drop t.stop)))
  | offence (cause : Malformation) (offends : Offends cs cause i)
      (scanned : scanFrom i (cs.drop i) = .error cause)

theorem step_blank (found : cs[i]? = some c) (blank : Text.isBlank c = true) : Step cs i := by
  have notNumber : isNumberPart c = false := by
    rw [Bool.eq_false_iff]
    intro part
    rw [not_isBlank_of_isNumberPart part] at blank
    cases blank
  have notName : isIdentifierPart c = false := by
    rw [Bool.eq_false_iff]
    intro part
    rw [not_isBlank_of_isIdentifierPart part] at blank
    cases blank
  obtain ⟨noName, noNumber⟩ := outside_of_plain found notNumber notName
  apply Step.blank found blank (isBoundary_succ noName noNumber)
  rw [drop_of_get found, scanFrom, if_pos blank]

theorem step_number (boundary : IsBoundary cs i) (found : cs[i]? = some c)
    (part : isNumberPart c = true) : Step cs i := by
  have here := (holdsAt_of_get found).trans part
  have notBlank := not_isBlank_of_isNumberPart part
  have run := boundary.isRun_number here
  have unfolded : scanFrom i (cs.drop i) =
      if isNumber (runFrom isNumberPart cs i) then
        followedBy ⟨.number (String.ofList (runFrom isNumberPart cs i)), i⟩
          (scanFrom (i + (runFrom isNumberPart cs i).length)
            (cs.drop (i + (runFrom isNumberPart cs i).length)))
      else .error (.malformedNumber (String.ofList (runFrom isNumberPart cs i)) i) := by
    rw [drop_of_get found, scanFrom]
    simp only [notBlank, part, Bool.false_eq_true, ↓reduceIte, runFrom_of_get found part,
      dropWhile_of_get found part]
  by_cases number : isNumber (runFrom isNumberPart cs i) = true
  · have stands := boundary.stands_number here
    refine .token _ rfl stands ⟨?_, ?_⟩ (stands.number _ rfl).boundary_number ?_
    · rw [String.toList_ofList, runFrom, List.all_takeWhile]
    · rw [String.toList_ofList, number]
    · rw [unfolded, if_pos number, stop_of_run (p := isNumberPart) rfl]
  · rw [← extract_runFrom, Bool.not_eq_true] at number
    have offends := Offends.number run number
    rw [extract_runFrom] at offends number
    refine .offence _ offends ?_
    rw [unfolded, number, if_neg Bool.false_ne_true]

theorem step_identifier (boundary : IsBoundary cs i) (found : cs[i]? = some c)
    (start : isIdentifierStart c = true) : Step cs i := by
  have here := (holdsAt_of_get found).trans start
  have part : isIdentifierPart c = true := by rw [isIdentifierPart, start, Bool.true_or]
  have stands := boundary.stands_identifier here
  refine .token _ rfl stands ?_ (stands.identifier _ rfl).boundary_identifier ?_
  · rw [← runFrom_of_get found part]
    exact isIdentifier_run start _
  · rw [stop_of_run (p := isIdentifierPart) rfl, drop_of_get found, scanFrom]
    simp only [not_isBlank_of_isIdentifierStart start, not_isNumberPart_of_isIdentifierStart start,
      start, Bool.false_eq_true, ↓reduceIte, runFrom_of_get found part, dropWhile_of_get found part]

/-- Any other character is a sign, or it offends. -/
theorem step_other (found : cs[i]? = some c) (notBlank : Text.isBlank c = false)
    (notNumber : isNumberPart c = false) (notStart : isIdentifierStart c = false) : Step cs i := by
  have notName : isIdentifierPart c = false := by
    rw [Bool.eq_false_iff]
    intro part
    rw [isNumberPart_of_isIdentifierPart part notStart] at notNumber
    cases notNumber
  obtain ⟨noName, noNumber⟩ := outside_of_plain found notNumber notName
  cases sign : Lexeme.ofSign? c with
  | some lexeme =>
      obtain ⟨stands, end_eq⟩ := stands_sign found sign
      refine .token ⟨lexeme, i⟩ rfl stands ?_ ?_ ?_
      · obtain ⟨-, noText, noName⟩ := text_of_ofSign? sign
        cases lexeme with
        | number text => exact absurd rfl (noText text)
        | identifier name => exact absurd rfl (noName name)
        | operator | leftParen | rightParen | comma => trivial
      · rw [end_eq]
        exact isBoundary_succ noName noNumber
      · rw [end_eq, drop_of_get found, scanFrom]
        simp only [notBlank, notNumber, notStart, Bool.false_eq_true, ↓reduceIte, sign]
  | none =>
      have noSign : c ∉ signs := fun among => ofSign?_of_mem_signs c among sign
      apply Step.offence _ (.character found noName noNumber notBlank noSign)
      rw [drop_of_get found, scanFrom]
      simp only [notBlank, notNumber, notStart, Bool.false_eq_true, ↓reduceIte, sign]

/-- At a boundary inside the text the scan takes a step. -/
theorem step_of_boundary (boundary : IsBoundary cs i) (more : i < cs.length) : Step cs i := by
  have found : cs[i]? = some cs[i] := List.getElem?_eq_getElem more
  by_cases blank : Text.isBlank cs[i] = true
  · exact step_blank found blank
  by_cases number : isNumberPart cs[i] = true
  · exact step_number boundary found number
  by_cases start : isIdentifierStart cs[i] = true
  · exact step_identifier boundary found start
  · rw [Bool.not_eq_true] at blank number start
    exact step_other found blank number start

end

/-! ### The whole scan -/

/-- The outcome of a scan from a position on: the segmentation of the text, if nothing there offends,
and else the first thing that does. -/
def IsOutcome (cs : List Char) (i : Nat) : Except Malformation (List Token) → Prop
  | .ok tokens => Segments cs i tokens ∧ (∀ t ∈ tokens, IsLegal t.lexeme) ∧
      ∀ cause m, i ≤ m → ¬ Offends cs cause m
  | .error cause => ∃ m, i ≤ m ∧ Offends cs cause m ∧
      ∀ other n, i ≤ n → n < m → ¬ Offends cs other n

section

variable {cs : List Char} {i : Nat}

theorem isOutcome_end (behind : cs.length ≤ i) : IsOutcome cs i (.ok []) := by
  refine ⟨⟨nofun, nofun, List.Pairwise.nil, ?_⟩, nofun, ?_⟩
  · intro m c lower found
    rw [List.getElem?_eq_none (by omega)] at found
    cases found
  · intro cause m lower
    exact not_offends_of_end (by omega)

theorem IsOutcome.blank {result : Except Malformation (List Token)} {c : Char}
    (outcome : IsOutcome cs (i + 1) result) (found : cs[i]? = some c)
    (blank : Text.isBlank c = true) : IsOutcome cs i result := by
  have earlier {m : Nat} (lower : i ≤ m) (notLater : ¬ i + 1 ≤ m) : m = i := by omega
  cases result with
  | ok tokens =>
      obtain ⟨segments, legal, clean⟩ := outcome
      refine ⟨⟨segments.stands, ?_, segments.ordered, ?_⟩, legal, ?_⟩
      · intro t inside
        exact Nat.le_of_succ_le (segments.behind t inside)
      · intro m d lower found' uncovered
        by_cases later : i + 1 ≤ m
        · exact segments.blanks m d later found' uncovered
        · cases earlier lower later
          cases found.symm.trans found'
          exact blank
      · intro cause m lower
        by_cases later : i + 1 ≤ m
        · exact clean cause m later
        · cases earlier lower later
          exact not_offends_of_blank found blank
  | error cause =>
      obtain ⟨m, lower, offends, first⟩ := outcome
      refine ⟨m, Nat.le_of_succ_le lower, offends, ?_⟩
      intro other n lower' upper
      by_cases later : i + 1 ≤ n
      · exact first other n later upper
      · cases earlier lower' later
        exact not_offends_of_blank found blank

theorem IsOutcome.token {result : Except Malformation (List Token)} {t : Token}
    (outcome : IsOutcome cs t.stop result) (stands : t.Stands cs) (legal : IsLegal t.lexeme) :
    IsOutcome cs t.position (followedBy t result) := by
  have nonempty := stands.covers_position.2
  have covered {m : Nat} (lower : t.position ≤ m) (notLater : ¬ t.stop ≤ m) : t.Covers m :=
    ⟨lower, by omega⟩
  cases result with
  | ok tokens =>
      obtain ⟨segments, legal', clean⟩ := outcome
      refine ⟨⟨?_, ?_, ?_, ?_⟩, ?_, ?_⟩
      · exact List.forall_mem_cons.2 ⟨stands, segments.stands⟩
      · refine List.forall_mem_cons.2 ⟨Nat.le_refl _, fun s inside => ?_⟩
        have later := segments.behind s inside
        omega
      · refine List.pairwise_cons.2 ⟨fun s inside => ?_, segments.ordered⟩
        have later := segments.behind s inside
        omega
      · intro m c lower found uncovered
        obtain ⟨outside, others⟩ := List.forall_mem_cons.1 uncovered
        by_cases later : t.stop ≤ m
        · exact segments.blanks m c later found others
        · exact absurd (covered lower later) outside
      · exact List.forall_mem_cons.2 ⟨legal, legal'⟩
      · intro cause m lower
        by_cases later : t.stop ≤ m
        · exact clean cause m later
        · exact not_offends_of_covered stands legal (covered lower later)
  | error cause =>
      obtain ⟨m, lower, offends, first⟩ := outcome
      refine ⟨m, by omega, offends, ?_⟩
      intro other n lower' upper
      by_cases later : t.stop ≤ n
      · exact first other n later upper
      · exact not_offends_of_covered stands legal (covered lower' later)

end

/-- The outcome of the scan from a boundary on, by induction on what is left of the text. -/
theorem isOutcome_scanFrom {cs : List Char} {i : Nat} (boundary : IsBoundary cs i) :
    IsOutcome cs i (scanFrom i (cs.drop i)) := by
  induction left : cs.length - i using Nat.strongRecOn generalizing i with
  | ind left ih =>
      by_cases more : i < cs.length
      · cases step_of_boundary boundary more with
        | blank found blank next scanned =>
            rw [scanned]
            exact (ih _ (by omega) next rfl).blank found blank
        | token t here stands legal next scanned =>
            have nonempty := stands.covers_position.2
            rw [scanned, ← here]
            exact (ih _ (by omega) next rfl).token stands legal
        | offence cause offends scanned =>
            rw [scanned]
            exact ⟨i, Nat.le_refl i, offends, fun other n lower upper => by omega⟩
      · rw [List.drop_eq_nil_of_le (by omega), scanFrom]
        exact isOutcome_end (by omega)

theorem isOutcome_scan (text : String) : IsOutcome text.toList 0 (scan text) := by
  have outcome := isOutcome_scanFrom (isBoundary_zero text.toList)
  rwa [List.drop_zero] at outcome

/-! ### Scanning again -/

/-- The tokens of a text one behind the other, with a blank between them. -/
def spaced (tokens : List Token) : String := " ".intercalate (tokens.map Token.text)

/-- The text of a lexeme is scanned as this lexeme, if no number or identifier runs on behind it. -/
theorem Scans.lexeme {cs : List Char} {ts : List Lexeme} {lexeme : Lexeme} (scans : Scans cs ts)
    (legal : IsLegal lexeme) (ends : endsRun cs = true) :
    Scans (lexeme.text.toList ++ cs) (lexeme :: ts) := by
  rcases lexeme_cases lexeme with ⟨text, rfl⟩ | ⟨name, rfl⟩ | ⟨c, text, sign⟩
  · have run := scans.number legal.1 legal.2 ends
    rwa [String.ofList_toList] at run
  · exact scans.identifier legal ends
  · rw [text]
    exact scans.ofSign sign

theorem scans_spaced {tokens : List Token} (legal : ∀ t ∈ tokens, IsLegal t.lexeme) :
    Scans (spaced tokens).toList (tokens.map Token.lexeme) := by
  induction tokens with
  | nil => exact scans_nil
  | cons t rest ih =>
      obtain ⟨first, others⟩ := List.forall_mem_cons.1 legal
      have more := ih others
      rw [spaced, String.toList_intercalate] at more ⊢
      cases rest with
      | nil =>
          have last := scans_nil.lexeme first rfl
          simpa [Token.text] using last
      | cons u rest =>
          have space : Text.isBlank ' ' = true := by decide
          have whole := (more.blank space).lexeme first (endsRun_blank space _)
          simpa [Token.text, List.intercalate] using whole

/-! ### Exactness -/

theorem isNumber_iff (run : List Char) :
    isNumber run = true ↔ (∃ c ∈ run, Decimal.isDigit c = true) ∧ run.count '.' ≤ 1 := by
  rw [isNumber, Bool.and_eq_true, decide_eq_true_eq, List.any_eq_true]
  exact And.comm

/-- Nothing in a text offends if all characters outside identifiers and numbers are blanks and signs and
the numbers have a digit and at most one point. -/
theorem clean_iff (cs : List Char) :
    (∀ cause i, ¬ Offends cs cause i) ↔
      (∀ i c, cs[i]? = some c → ¬ InIdentifier cs i → ¬ InNumber cs i →
        Text.isBlank c = true ∨ c ∈ signs) ∧
      ∀ i j, IsRun (InNumber cs) i j →
        (∃ c ∈ cs.extract i j, Decimal.isDigit c = true) ∧ (cs.extract i j).count '.' ≤ 1 := by
  constructor
  · intro clean
    constructor
    · intro i c found noName noNumber
      by_contra neither
      rw [not_or, Bool.not_eq_true] at neither
      exact clean _ i (.character found noName noNumber neither.1 neither.2)
    · intro i j run
      rw [← isNumber_iff]
      by_contra malformed
      rw [Bool.not_eq_true] at malformed
      exact clean _ i (.number run malformed)
  · rintro ⟨others, numbers⟩ cause i offends
    cases offends with
    | character found noName noNumber notBlank noSign =>
        rcases others i _ found noName noNumber with blank | sign
        · rw [blank] at notBlank
          cases notBlank
        · exact noSign sign
    | number run malformed =>
        rw [(isNumber_iff _).2 (numbers _ _ run)] at malformed
        cases malformed

theorem Offends.report {cs : List Char} {cause : Malformation} {i : Nat}
    (offends : Offends cs cause i) :
    (cause.code = .invalidCharacter ∨ cause.code = .missingValue) ∧ cause.position? = some i := by
  cases offends with
  | character => exact ⟨.inl rfl, rfl⟩
  | number => exact ⟨.inr rfl, rfl⟩

/-- Scanning is exact. A text has tokens exactly if each of its characters outside identifiers and
numbers is a blank, an operator, a parenthesis or a comma, and each number has a digit and at most one
point. The tokens are then the only ones that cut up the text: they stand where they say, one behind the
other, with blanks between them, and their numbers and identifiers are as long as they can be. Their
texts with blanks between them are scanned as the same lexemes again. Otherwise the scan reports the
first character or number that offends, at its position. -/
theorem scan_exact (text : String) :
    ((∃ tokens, scan text = .ok tokens) ↔
      (∀ i c, text.toList[i]? = some c → ¬ InIdentifier text.toList i → ¬ InNumber text.toList i →
        Text.isBlank c = true ∨ c ∈ signs) ∧
      ∀ i j, IsRun (InNumber text.toList) i j →
        (∃ c ∈ text.toList.extract i j, Decimal.isDigit c = true) ∧
          (text.toList.extract i j).count '.' ≤ 1) ∧
    (∀ tokens, scan text = .ok tokens →
      Segments text.toList 0 tokens ∧
      (∀ others, Segments text.toList 0 others → others = tokens) ∧
      ∃ again, scan (spaced tokens) = .ok again ∧
        again.map Token.lexeme = tokens.map Token.lexeme) ∧
    ∀ cause, scan text = .error cause →
      ∃ i, Offends text.toList cause i ∧ (∀ other m, m < i → ¬ Offends text.toList other m) ∧
        (cause.code = .invalidCharacter ∨ cause.code = .missingValue) ∧
        cause.position? = some i := by
  have outcome := isOutcome_scan text
  refine ⟨?_, ?_, ?_⟩
  · rw [← clean_iff]
    constructor
    · rintro ⟨tokens, scanned⟩ cause i
      rw [scanned] at outcome
      exact outcome.2.2 cause i (Nat.zero_le i)
    · intro clean
      cases scanned : scan text with
      | ok tokens => exact ⟨tokens, rfl⟩
      | error cause =>
          rw [scanned] at outcome
          obtain ⟨i, -, offends, -⟩ := outcome
          exact absurd offends (clean cause i)
  · intro tokens scanned
    rw [scanned] at outcome
    obtain ⟨segments, legal, -⟩ := outcome
    refine ⟨segments, fun others segments' => segments.unique segments', ?_⟩
    exact scans_spaced legal 0
  · intro cause scanned
    rw [scanned] at outcome
    obtain ⟨i, -, offends, first⟩ := outcome
    exact ⟨i, offends, fun other m before => first other m (Nat.zero_le m) before, offends.report⟩

/-- In `x2.5y 7` the first digit is part of an identifier, and the point starts a number. -/
theorem scan_exact_touching :
    let tokens : List Token := [⟨.identifier "x2", 0⟩, ⟨.number ".5", 2⟩, ⟨.identifier "y", 4⟩,
      ⟨.number "7", 6⟩]
    scan "x2.5y 7" = .ok tokens ∧ Segments "x2.5y 7".toList 0 tokens ∧
      spaced tokens = "x2 .5 y 7" ∧
      ∃ again, scan "x2 .5 y 7" = .ok again ∧ again.map Token.lexeme = tokens.map Token.lexeme := by
  intro tokens
  have scanned : scan "x2.5y 7" = .ok tokens := by decide +kernel
  obtain ⟨segments, -, again⟩ := (scan_exact "x2.5y 7").2.1 tokens scanned
  exact ⟨scanned, segments, by cbv, again⟩

end Formula.Token
