import Mathlib.Data.List.Sort
import Formula.Proofs.Scan

/-!
Segmentation. The characters of a text alone say which of its stretches are identifiers and which are
numbers: an identifier begins at a letter or an underscore and goes on as long as it can, and a number
is a longest stretch of digits and points outside all identifiers. The scan cuts a text into just these
stretches and the signs between them. It fails at the first number that is malformed or the first
other character that is neither a sign nor a blank.
-/

set_option autoImplicit false

namespace Formula.Token

/-! ### Stretches of a text -/

/-- The signs that are tokens of their own: the operators, the parentheses and the comma. -/
def signs : List Char := ['+', '-', '*', '/', '^', '(', ')', ',']

/-- There is a character of a class at a position. -/
def holdsAt (p : Char → Bool) (cs : List Char) (i : Nat) : Bool := cs[i]?.any p

/-- A position inside an identifier. The identifier starts there or in front of it, and everything in
between is part of it. -/
def InIdentifier (cs : List Char) (i : Nat) : Prop :=
  ∃ k, k ≤ i ∧ holdsAt isIdentifierStart cs k = true ∧
    ∀ m, k ≤ m → m ≤ i → holdsAt isIdentifierPart cs m = true

/-- A position inside a number: there is a digit or a point that is not part of an identifier. -/
def InNumber (cs : List Char) (i : Nat) : Prop :=
  holdsAt isNumberPart cs i = true ∧ ¬ InIdentifier cs i

/-- A longest stretch of positions with a property. It ends in front of the second position. -/
structure IsRun (p : Nat → Prop) (i j : Nat) : Prop where
  nonempty : i < j
  inside : ∀ m, i ≤ m → m < j → p m
  starts : ∀ m, m + 1 = i → ¬ p m
  ends : ¬ p j

/-- A longest stretch covers every one that it meets. -/
theorem IsRun.covers {p : Nat → Prop} {i j i' j' m : Nat} (run : IsRun p i j)
    (other : IsRun p i' j') (lower : i ≤ m) (upper : m < j) (lower' : i' ≤ m) (upper' : m < j') :
    i ≤ i' ∧ j' ≤ j := by
  constructor
  · by_contra before
    exact run.starts (i - 1) (by omega) (other.inside (i - 1) (by omega) (by omega))
  · by_contra behind
    exact run.ends (other.inside j (by omega) (by omega))

def stop (t : Token) : Nat := t.position + t.text.length

/-- A token covers a position of the text. -/
def Covers (t : Token) (i : Nat) : Prop := t.position ≤ i ∧ i < t.stop

/-- A token stands in a text: its text is there at its position, and a number or an identifier takes
up a longest stretch. -/
structure Stands (cs : List Char) (t : Token) : Prop where
  spelled : cs.extract t.position t.stop = t.text.toList
  number : ∀ text, t.lexeme = .number text → IsRun (InNumber cs) t.position t.stop
  identifier : ∀ name, t.lexeme = .identifier name → IsRun (InIdentifier cs) t.position t.stop

/-- Tokens cut up a text from a position on. They stand in it, one behind the other, with nothing but
blanks outside of them. -/
structure Segments (cs : List Char) (start : Nat) (tokens : List Token) : Prop where
  stands : ∀ t ∈ tokens, t.Stands cs
  behind : ∀ t ∈ tokens, start ≤ t.position
  ordered : tokens.Pairwise fun s t => s.position < t.position
  blanks : ∀ i c, start ≤ i → cs[i]? = some c → (∀ t ∈ tokens, ¬ t.Covers i) → Text.isBlank c = true

/-- What is wrong with a text at a position: a character outside identifiers and numbers that is
neither a blank nor a sign, or a number that has no digit or more than one point. -/
inductive Offends (cs : List Char) : Malformation → Nat → Prop
  | character {i : Nat} {c : Char} (found : cs[i]? = some c) (noName : ¬ InIdentifier cs i)
      (noNumber : ¬ InNumber cs i) (notBlank : Text.isBlank c = false) (noSign : c ∉ signs) :
      Offends cs (.illegalCharacter c i) i
  | number {i j : Nat} (run : IsRun (InNumber cs) i j) (malformed : isNumber (cs.extract i j) = false) :
      Offends cs (.malformedNumber (String.ofList (cs.extract i j)) i) i

/-! ### Characters -/

theorem holdsAt_of_get {p : Char → Bool} {cs : List Char} {i : Nat} {c : Char}
    (found : cs[i]? = some c) : holdsAt p cs i = p c := by
  rw [holdsAt, found, Option.any_some]

theorem get_of_holdsAt {p : Char → Bool} {cs : List Char} {i : Nat}
    (holds : holdsAt p cs i = true) : ∃ c, cs[i]? = some c ∧ p c = true := by
  rw [holdsAt] at holds
  cases found : cs[i]? with
  | none => simp [found] at holds
  | some c => exact ⟨c, rfl, by simpa [found] using holds⟩

/-- A digit is all that an identifier can go on with and not start with. -/
theorem isNumberPart_of_isIdentifierPart {c : Char} (part : isIdentifierPart c = true)
    (notStart : isIdentifierStart c = false) : isNumberPart c = true := by
  rw [isIdentifierPart, notStart, Bool.false_or] at part
  rw [isNumberPart, part, Bool.true_or]

theorem not_isBlank_of_isIdentifierPart {c : Char} (part : isIdentifierPart c = true) :
    Text.isBlank c = false := by
  by_cases start : isIdentifierStart c = true
  · exact not_isBlank_of_isIdentifierStart start
  · rw [Bool.not_eq_true] at start
    exact not_isBlank_of_isNumberPart (isNumberPart_of_isIdentifierPart part start)

theorem endsRun_blank {c : Char} (blank : Text.isBlank c = true) (cs : List Char) :
    endsRun (c :: cs) = true := by
  apply endsRun_cons
  rw [Bool.eq_false_iff]
  intro part
  rcases Bool.or_eq_true_iff.1 part with number | name
  · rw [not_isBlank_of_isNumberPart number] at blank
    cases blank
  · rw [not_isBlank_of_isIdentifierPart name] at blank
    cases blank

/-- No sign is a blank or part of a number or an identifier. -/
theorem plain_of_mem_signs : ∀ c ∈ signs,
    Text.isBlank c = false ∧ isNumberPart c = false ∧ isIdentifierPart c = false := by
  simp only [signs, List.forall_mem_cons, List.not_mem_nil, false_implies, implies_true, and_true]
  decide +kernel

theorem symbol_mem_signs (op : BinaryOp) : op.symbol ∈ signs := by
  cases op <;> decide

theorem mem_signs_of_ofSign? {c : Char} {lexeme : Lexeme}
    (sign : Lexeme.ofSign? c = some lexeme) : c ∈ signs := by
  unfold Lexeme.ofSign? at sign
  split at sign
  · next left => simp [left, signs]
  split at sign
  · next right => simp [right, signs]
  split at sign
  · next comma => simp [comma, signs]
  obtain ⟨op, found, -⟩ := Option.map_eq_some_iff.1 sign
  have same : op.symbol = c := by simpa using List.find?_some found
  rw [← same]
  exact symbol_mem_signs op

theorem endsRun_sign {c : Char} {lexeme : Lexeme} (sign : Lexeme.ofSign? c = some lexeme)
    (cs : List Char) : endsRun (c :: cs) = true := by
  obtain ⟨-, noNumber, noName⟩ := plain_of_mem_signs c (mem_signs_of_ofSign? sign)
  exact endsRun_cons (by rw [noNumber, noName, Bool.or_false]) cs

theorem Scans.ofSign {cs : List Char} {ts : List Lexeme} {c : Char} {lexeme : Lexeme}
    (scans : Scans cs ts) (sign : Lexeme.ofSign? c = some lexeme) :
    Scans (c :: cs) (lexeme :: ts) := by
  obtain ⟨notBlank, notNumber, notName⟩ := plain_of_mem_signs c (mem_signs_of_ofSign? sign)
  apply scans.sign sign
  rw [notBlank, notNumber, Bool.false_or, Bool.false_or, Bool.eq_false_iff]
  intro start
  rw [isIdentifierPart, start, Bool.true_or] at notName
  cases notName

theorem ofSign?_of_mem_signs : ∀ c ∈ signs, Lexeme.ofSign? c ≠ none := by
  simp only [signs, List.forall_mem_cons, List.not_mem_nil, false_implies, implies_true, and_true]
  decide

/-- A lexeme of a single sign. -/
def IsSign (lexeme : Lexeme) : Prop :=
  ∃ c, lexeme.text.toList = [c] ∧ Lexeme.ofSign? c = some lexeme

theorem lexeme_cases (lexeme : Lexeme) :
    (∃ text, lexeme = .number text) ∨ (∃ name, lexeme = .identifier name) ∨ IsSign lexeme := by
  cases lexeme with
  | number text => exact .inl ⟨text, rfl⟩
  | identifier name => exact .inr (.inl ⟨name, rfl⟩)
  | operator op => exact .inr (.inr ⟨op.symbol, by cases op <;> rfl, by cases op <;> rfl⟩)
  | leftParen => exact .inr (.inr ⟨'(', rfl, rfl⟩)
  | rightParen => exact .inr (.inr ⟨')', rfl, rfl⟩)
  | comma => exact .inr (.inr ⟨',', rfl, rfl⟩)

theorem text_of_ofSign? {c : Char} {lexeme : Lexeme} (sign : Lexeme.ofSign? c = some lexeme) :
    lexeme.text.toList = [c] ∧ (∀ text, lexeme ≠ .number text) ∧
      ∀ name, lexeme ≠ .identifier name := by
  have among := mem_signs_of_ofSign? sign
  simp only [signs, List.mem_cons, List.not_mem_nil, or_false] at among
  rcases among with rfl | rfl | rfl | rfl | rfl | rfl | rfl | rfl <;>
    (cases sign; exact ⟨rfl, nofun, nofun⟩)

/-! ### The run at a position -/

section

variable {p : Char → Bool}

theorem holdsAt_takeWhile {cs : List Char} {m : Nat} (inside : m < (cs.takeWhile p).length) :
    holdsAt p cs m = true := by
  induction cs generalizing m with
  | nil => simp at inside
  | cons c rest ih =>
      rw [List.takeWhile_cons] at inside
      split at inside
      · next fits =>
          cases m with
          | zero => exact (holdsAt_of_get rfl).trans fits
          | succ m => exact ih (Nat.lt_of_succ_lt_succ inside)
      · simp at inside

theorem not_holdsAt_takeWhile (cs : List Char) :
    holdsAt p cs (cs.takeWhile p).length = false := by
  induction cs with
  | nil => rfl
  | cons c rest ih =>
      rw [List.takeWhile_cons]
      split
      · exact ih
      · next stops => exact (holdsAt_of_get rfl).trans (Bool.eq_false_iff.2 stops)

theorem take_takeWhile (cs : List Char) :
    cs.take (cs.takeWhile p).length = cs.takeWhile p :=
  (List.prefix_iff_eq_take.1 (List.takeWhile_prefix p)).symm

theorem drop_takeWhile (cs : List Char) :
    cs.drop (cs.takeWhile p).length = cs.dropWhile p := by
  have whole : (cs.takeWhile p ++ cs.dropWhile p).drop (cs.takeWhile p).length = cs.dropWhile p :=
    List.drop_left
  rwa [List.takeWhile_append_dropWhile] at whole

end

theorem holdsAt_drop (p : Char → Bool) (cs : List Char) (i m : Nat) :
    holdsAt p (cs.drop i) m = holdsAt p cs (i + m) := by
  rw [holdsAt, holdsAt, List.getElem?_drop]

/-- The run of a class of characters from a position on. -/
def runFrom (p : Char → Bool) (cs : List Char) (i : Nat) : List Char := (cs.drop i).takeWhile p

section

variable {p : Char → Bool} {cs : List Char} {i : Nat}

theorem holdsAt_runFrom {m : Nat} (lower : i ≤ m) (upper : m < i + (runFrom p cs i).length) :
    holdsAt p cs m = true := by
  have inside : holdsAt p (cs.drop i) (m - i) = true :=
    holdsAt_takeWhile (show m - i < (runFrom p cs i).length by omega)
  rwa [holdsAt_drop, Nat.add_sub_cancel' lower] at inside

theorem not_holdsAt_runFrom : holdsAt p cs (i + (runFrom p cs i).length) = false := by
  rw [← holdsAt_drop]
  exact not_holdsAt_takeWhile (cs.drop i)

theorem extract_runFrom : cs.extract i (i + (runFrom p cs i).length) = runFrom p cs i := by
  rw [List.extract_eq_take_drop, Nat.add_sub_cancel_left]
  exact take_takeWhile (cs.drop i)

theorem drop_runFrom :
    cs.drop (i + (runFrom p cs i).length) = (cs.drop i).dropWhile p := by
  rw [← List.drop_drop]
  exact drop_takeWhile (cs.drop i)

variable {c : Char} (found : cs[i]? = some c)

include found

theorem drop_of_get : cs.drop i = c :: cs.drop (i + 1) := by
  obtain ⟨below, same⟩ := List.getElem?_eq_some_iff.1 found
  rw [List.drop_eq_getElem_cons below, same]

theorem runFrom_of_get (fits : p c = true) :
    c :: (cs.drop (i + 1)).takeWhile p = runFrom p cs i := by
  rw [runFrom, drop_of_get found, List.takeWhile_cons, if_pos fits]

theorem dropWhile_of_get (fits : p c = true) :
    (cs.drop (i + 1)).dropWhile p = cs.drop (i + (runFrom p cs i).length) := by
  rw [drop_runFrom, drop_of_get found, List.dropWhile_cons, if_pos fits]

theorem length_runFrom_pos (fits : p c = true) : 0 < (runFrom p cs i).length := by
  rw [← runFrom_of_get found fits]
  exact Nat.succ_pos _

end

/-! ### Boundaries -/

/-- No identifier and no number goes on across a position. -/
structure IsBoundary (cs : List Char) (i : Nat) : Prop where
  identifier : ∀ m, m + 1 = i → ¬ (InIdentifier cs m ∧ InIdentifier cs i)
  number : ∀ m, m + 1 = i → ¬ (InNumber cs m ∧ InNumber cs i)

theorem isBoundary_zero (cs : List Char) : IsBoundary cs 0 :=
  ⟨fun _ before => absurd before (Nat.succ_ne_zero _),
    fun _ before => absurd before (Nat.succ_ne_zero _)⟩

section

variable {cs : List Char} {i m : Nat}

theorem InIdentifier.part (inside : InIdentifier cs i) : holdsAt isIdentifierPart cs i = true := by
  obtain ⟨k, lower, -, parts⟩ := inside
  exact parts i lower (Nat.le_refl i)

theorem InIdentifier.of_start (start : holdsAt isIdentifierStart cs i = true)
    (lower : i ≤ m) (parts : ∀ n, i ≤ n → n ≤ m → holdsAt isIdentifierPart cs n = true) :
    InIdentifier cs m :=
  ⟨i, lower, start, parts⟩

/-- An identifier that reaches over a boundary starts there. -/
theorem IsBoundary.start_of_inside (boundary : IsBoundary cs i) (lower : i ≤ m)
    (inside : InIdentifier cs m) :
    ∃ k, i ≤ k ∧ k ≤ m ∧ holdsAt isIdentifierStart cs k = true := by
  obtain ⟨k, before, start, parts⟩ := inside
  by_cases across : k < i
  · exfalso
    have left : InIdentifier cs (i - 1) :=
      .of_start start (by omega) fun n first last => parts n first (by omega)
    have right : InIdentifier cs i :=
      .of_start start (by omega) fun n first last => parts n first (by omega)
    exact boundary.identifier (i - 1) (by omega) ⟨left, right⟩
  · exact ⟨k, by omega, before, start⟩

theorem not_start_of_isNumberPart (part : holdsAt isNumberPart cs i = true) :
    holdsAt isIdentifierStart cs i = false := by
  obtain ⟨c, found, number⟩ := get_of_holdsAt part
  rw [holdsAt_of_get found, Bool.eq_false_iff]
  intro start
  rw [not_isNumberPart_of_isIdentifierStart start] at number
  cases number

theorem IsBoundary.isRun_number (boundary : IsBoundary cs i)
    (part : holdsAt isNumberPart cs i = true) :
    IsRun (InNumber cs) i (i + (runFrom isNumberPart cs i).length) := by
  have inside : ∀ m, i ≤ m → m < i + (runFrom isNumberPart cs i).length → InNumber cs m := by
    intro m lower upper
    refine ⟨holdsAt_runFrom lower upper, fun name => ?_⟩
    obtain ⟨k, first, last, start⟩ := boundary.start_of_inside lower name
    have digit : holdsAt isNumberPart cs k = true := holdsAt_runFrom first (by omega)
    rw [not_start_of_isNumberPart digit] at start
    cases start
  obtain ⟨c, found, fits⟩ := get_of_holdsAt part
  have nonempty := length_runFrom_pos found fits
  refine ⟨by omega, inside, ?_, ?_⟩
  · intro m before number
    exact boundary.number m before ⟨number, inside i (Nat.le_refl i) (by omega)⟩
  · intro number
    have stops : holdsAt isNumberPart cs (i + (runFrom isNumberPart cs i).length) = false :=
      not_holdsAt_runFrom
    rw [number.1] at stops
    cases stops

theorem IsBoundary.isRun_identifier (boundary : IsBoundary cs i)
    (start : holdsAt isIdentifierStart cs i = true) :
    IsRun (InIdentifier cs) i (i + (runFrom isIdentifierPart cs i).length) := by
  have inside : ∀ m, i ≤ m → m < i + (runFrom isIdentifierPart cs i).length →
      InIdentifier cs m := by
    intro m lower upper
    exact .of_start start lower fun n first last => holdsAt_runFrom first (by omega)
  obtain ⟨c, found, fits⟩ := get_of_holdsAt start
  have nonempty : 0 < (runFrom isIdentifierPart cs i).length :=
    length_runFrom_pos found (by rw [isIdentifierPart, fits, Bool.true_or])
  refine ⟨by omega, inside, ?_, ?_⟩
  · intro m before name
    exact boundary.identifier m before ⟨name, inside i (Nat.le_refl i) (by omega)⟩
  · intro name
    have stops : holdsAt isIdentifierPart cs (i + (runFrom isIdentifierPart cs i).length) = false :=
      not_holdsAt_runFrom
    rw [name.part] at stops
    cases stops

theorem IsRun.boundary_number {j : Nat} (run : IsRun (InNumber cs) i j) : IsBoundary cs j := by
  have nonempty := run.nonempty
  constructor
  · intro m before both
    exact (run.inside m (by omega) (by omega)).2 both.1
  · intro m before both
    exact run.ends both.2

theorem IsRun.boundary_identifier {j : Nat} (run : IsRun (InIdentifier cs) i j) :
    IsBoundary cs j := by
  have nonempty := run.nonempty
  constructor
  · intro m before both
    exact run.ends both.2
  · intro m before both
    exact both.1.2 (run.inside m (by omega) (by omega))

theorem isBoundary_succ (noName : ¬ InIdentifier cs i) (noNumber : ¬ InNumber cs i) :
    IsBoundary cs (i + 1) := by
  constructor
  · intro m before both
    cases Nat.succ.inj before
    exact noName both.1
  · intro m before both
    cases Nat.succ.inj before
    exact noNumber both.1

/-- A character that is no part of either is in no identifier and in no number. -/
theorem outside_of_plain {c : Char} (found : cs[i]? = some c) (noNumber : isNumberPart c = false)
    (noName : isIdentifierPart c = false) : ¬ InIdentifier cs i ∧ ¬ InNumber cs i := by
  constructor
  · intro inside
    have part := inside.part
    rw [holdsAt_of_get found, noName] at part
    cases part
  · intro inside
    have part := inside.1
    rw [holdsAt_of_get found, noNumber] at part
    cases part

end

/-! ### Tokens in a text -/

section

variable {cs : List Char} {i : Nat}

theorem stop_of_run {p : Char → Bool} {lexeme : Lexeme}
    (text : lexeme.text = String.ofList (runFrom p cs i)) :
    stop ⟨lexeme, i⟩ = i + (runFrom p cs i).length := by
  rw [stop, Token.text, text, String.length_ofList]

theorem spelled_of_run {p : Char → Bool} {lexeme : Lexeme}
    (text : lexeme.text = String.ofList (runFrom p cs i)) :
    cs.extract i (stop ⟨lexeme, i⟩) = (Token.text ⟨lexeme, i⟩).toList := by
  rw [stop_of_run text, extract_runFrom, Token.text, text, String.toList_ofList]

theorem IsBoundary.stands_number (boundary : IsBoundary cs i)
    (part : holdsAt isNumberPart cs i = true) :
    Stands cs ⟨.number (String.ofList (runFrom isNumberPart cs i)), i⟩ := by
  refine ⟨spelled_of_run rfl, fun text _ => ?_, nofun⟩
  rw [stop_of_run (p := isNumberPart) rfl]
  exact boundary.isRun_number part

theorem IsBoundary.stands_identifier (boundary : IsBoundary cs i)
    (start : holdsAt isIdentifierStart cs i = true) :
    Stands cs ⟨.identifier (String.ofList (runFrom isIdentifierPart cs i)), i⟩ := by
  refine ⟨spelled_of_run rfl, nofun, fun name _ => ?_⟩
  rw [stop_of_run (p := isIdentifierPart) rfl]
  exact boundary.isRun_identifier start

theorem stands_sign {c : Char} {lexeme : Lexeme} (found : cs[i]? = some c)
    (sign : Lexeme.ofSign? c = some lexeme) :
    Stands cs ⟨lexeme, i⟩ ∧ stop ⟨lexeme, i⟩ = i + 1 := by
  obtain ⟨text, noNumber, noName⟩ := text_of_ofSign? sign
  have end_eq : stop ⟨lexeme, i⟩ = i + 1 := by
    rw [stop, Token.text, ← String.length_toList, text]
    rfl
  refine ⟨⟨?_, fun text same => absurd same (noNumber text),
    fun name same => absurd same (noName name)⟩, end_eq⟩
  rw [end_eq, Token.text, text, List.extract_eq_take_drop, Nat.add_sub_cancel_left,
    drop_of_get found]
  rfl

end

theorem Stands.sign {cs : List Char} {t : Token} (stands : t.Stands cs) (sign : IsSign t.lexeme) :
    t.stop = t.position + 1 ∧
      ∃ c, cs[t.position]? = some c ∧ Lexeme.ofSign? c = some t.lexeme := by
  obtain ⟨c, text, sign⟩ := sign
  have end_eq : t.stop = t.position + 1 := by
    rw [stop, Token.text, ← String.length_toList, text]
    rfl
  have spelled := stands.spelled
  rw [end_eq, Token.text, text, List.extract_eq_take_drop, Nat.add_sub_cancel_left] at spelled
  have first := congrArg (·[0]?) spelled
  simp only [List.getElem?_take, List.getElem?_drop] at first
  exact ⟨end_eq, c, by simpa using first, sign⟩

theorem Stands.sign_outside {cs : List Char} {t : Token} (stands : t.Stands cs)
    (sign : IsSign t.lexeme) {i : Nat} (covers : t.Covers i) :
    i = t.position ∧ ¬ InIdentifier cs i ∧ ¬ InNumber cs i := by
  obtain ⟨end_eq, c, found, sign⟩ := stands.sign sign
  have same : i = t.position := by
    have bounds := covers
    rw [Covers, end_eq] at bounds
    omega
  obtain ⟨-, noNumber, noName⟩ := plain_of_mem_signs c (mem_signs_of_ofSign? sign)
  exact ⟨same, same ▸ outside_of_plain found noNumber noName⟩

theorem Stands.covers_position {cs : List Char} {t : Token} (stands : t.Stands cs) :
    t.Covers t.position := by
  refine ⟨Nat.le_refl _, ?_⟩
  rcases lexeme_cases t.lexeme with ⟨text, number⟩ | ⟨name, identifier⟩ | sign
  · exact (stands.number text number).nonempty
  · exact (stands.identifier name identifier).nonempty
  · rw [(stands.sign sign).1]
    exact Nat.lt_succ_self _

theorem Stands.starts {cs : List Char} {t : Token} (stands : t.Stands cs) :
    ∃ c, cs[t.position]? = some c ∧ Text.isBlank c = false := by
  have nonempty := stands.covers_position.2
  rcases lexeme_cases t.lexeme with ⟨text, number⟩ | ⟨name, identifier⟩ | sign
  · have inside := (stands.number text number).inside t.position (Nat.le_refl _) nonempty
    obtain ⟨c, found, part⟩ := get_of_holdsAt inside.1
    exact ⟨c, found, not_isBlank_of_isNumberPart part⟩
  · have inside := (stands.identifier name identifier).inside t.position (Nat.le_refl _) nonempty
    obtain ⟨c, found, part⟩ := get_of_holdsAt inside.part
    exact ⟨c, found, not_isBlank_of_isIdentifierPart part⟩
  · obtain ⟨-, c, found, sign⟩ := stands.sign sign
    exact ⟨c, found, (plain_of_mem_signs c (mem_signs_of_ofSign? sign)).1⟩

theorem Stands.inNumber {cs : List Char} {t : Token} (stands : t.Stands cs) {text : String}
    (number : t.lexeme = .number text) {i : Nat} (covers : t.Covers i) : InNumber cs i :=
  (stands.number text number).inside i covers.1 covers.2

theorem Stands.inIdentifier {cs : List Char} {t : Token} (stands : t.Stands cs) {name : String}
    (identifier : t.lexeme = .identifier name) {i : Nat} (covers : t.Covers i) :
    InIdentifier cs i :=
  (stands.identifier name identifier).inside i covers.1 covers.2

theorem IsRun.eq_of_meet {p : Nat → Prop} {i j i' j' m : Nat} (run : IsRun p i j)
    (other : IsRun p i' j') (lower : i ≤ m) (upper : m < j) (lower' : i' ≤ m) (upper' : m < j') :
    i = i' ∧ j = j' := by
  have first := run.covers other lower upper lower' upper'
  have second := other.covers run lower' upper' lower upper
  omega

theorem eq_of_extent {cs : List Char} {s t : Token} (stands : s.Stands cs) (stands' : t.Stands cs)
    (extent : s.position = t.position ∧ s.stop = t.stop)
    (kind : s.text = t.text → s.lexeme = t.lexeme) : s = t := by
  have text : s.text = t.text := by
    rw [← String.toList_inj, ← stands.spelled, ← stands'.spelled, extent.1, extent.2]
  obtain ⟨lexeme, position⟩ := s
  obtain ⟨lexeme', position'⟩ := t
  cases extent.1
  cases kind text
  rfl

/-- Tokens that meet in a text are the same. -/
theorem Stands.eq_of_meet {cs : List Char} {s t : Token} {i : Nat} (stands : s.Stands cs)
    (stands' : t.Stands cs) (covers : s.Covers i) (covers' : t.Covers i) : s = t := by
  rcases lexeme_cases s.lexeme with ⟨text, number⟩ | ⟨name, identifier⟩ | sign
  · have inside := stands.inNumber number covers
    rcases lexeme_cases t.lexeme with ⟨text', number'⟩ | ⟨name', identifier'⟩ | sign'
    · have extent := (stands.number text number).eq_of_meet (stands'.number text' number')
        covers.1 covers.2 covers'.1 covers'.2
      apply eq_of_extent stands stands' extent
      intro same
      simpa only [Token.text, number, number', Lexeme.text, Lexeme.number.injEq] using same
    · exact absurd (stands'.inIdentifier identifier' covers') inside.2
    · exact absurd inside (stands'.sign_outside sign' covers').2.2
  · have inside := stands.inIdentifier identifier covers
    rcases lexeme_cases t.lexeme with ⟨text', number'⟩ | ⟨name', identifier'⟩ | sign'
    · exact absurd inside (stands'.inNumber number' covers').2
    · have extent := (stands.identifier name identifier).eq_of_meet
        (stands'.identifier name' identifier') covers.1 covers.2 covers'.1 covers'.2
      apply eq_of_extent stands stands' extent
      intro same
      simpa only [Token.text, identifier, identifier', Lexeme.text, Lexeme.identifier.injEq]
        using same
    · exact absurd inside (stands'.sign_outside sign' covers').2.1
  · obtain ⟨here, noName, noNumber⟩ := stands.sign_outside sign covers
    rcases lexeme_cases t.lexeme with ⟨text', number'⟩ | ⟨name', identifier'⟩ | sign'
    · exact absurd (stands'.inNumber number' covers') noNumber
    · exact absurd (stands'.inIdentifier identifier' covers') noName
    · obtain ⟨here', -, -⟩ := stands'.sign_outside sign' covers'
      obtain ⟨end_eq, c, found, sign⟩ := stands.sign sign
      obtain ⟨end_eq', c', found', sign'⟩ := stands'.sign sign'
      have position : s.position = t.position := here.symm.trans here'
      apply eq_of_extent stands stands' ⟨position, by rw [end_eq, end_eq', position]⟩
      intro _
      rw [position, found'] at found
      cases found
      exact Option.some.inj (sign.symm.trans sign')

/-! ### One segmentation -/

/-- A token that stands in a text is in every segmentation of it: its first character is no blank, so
some token of the segmentation covers it. -/
theorem Segments.mem_of_stands {cs : List Char} {start : Nat} {tokens : List Token} {t : Token}
    (segments : Segments cs start tokens) (stands : t.Stands cs) (behind : start ≤ t.position) :
    t ∈ tokens := by
  obtain ⟨c, found, notBlank⟩ := stands.starts
  by_contra missing
  have blank := segments.blanks t.position c behind found
  rw [notBlank] at blank
  apply Bool.false_ne_true
  apply blank
  intro s inside covers
  apply missing
  rw [stands.eq_of_meet (segments.stands s inside) stands.covers_position covers]
  exact inside

theorem Segments.unique {cs : List Char} {start : Nat} {tokens others : List Token}
    (segments : Segments cs start tokens) (segments' : Segments cs start others) :
    others = tokens := by
  have antisymm : Std.Antisymm fun s t : Token => s.position < t.position :=
    ⟨fun s t first second => absurd first (by omega)⟩
  have irrefl : Std.Irrefl fun s t : Token => s.position < t.position :=
    ⟨fun s => Nat.lt_irrefl _⟩
  apply segments'.ordered.eq_of_mem_iff segments.ordered
  intro t
  constructor
  · intro inside
    exact segments.mem_of_stands (segments'.stands t inside) (segments'.behind t inside)
  · intro inside
    exact segments'.mem_of_stands (segments.stands t inside) (segments.behind t inside)

end Formula.Token
