import Formula.Token.Scan

/-!
Scanning a written text. A text that puts its pieces one behind the other is cut into them again,
provided that no piece runs on into the next: a number or an identifier ends where a character
follows that could not be part of either.
-/

set_option autoImplicit false

namespace Formula

namespace Text

/-- No range of one table meets a range of another. -/
def Ranges.apart (first second : Ranges) : Bool :=
  first.all fun r => second.all fun s => r.2 < s.1 || s.2 < r.1

theorem Ranges.not_contains_of_apart {first second : Ranges} (apart : first.apart second = true)
    {c : Char} (inside : first.contains c = true) : second.contains c = false := by
  rw [Bool.eq_false_iff]
  intro both
  obtain ⟨r, amongFirst, low, high⟩ := (first.contains_iff c).1 inside
  obtain ⟨s, amongSecond, low', high'⟩ := (second.contains_iff c).1 both
  have disjoint := List.all_eq_true.1 (List.all_eq_true.1 apart r amongFirst) s amongSecond
  simp only [Bool.or_eq_true, decide_eq_true_eq] at disjoint
  omega

theorem letters_apart_blanks : letters.apart blanks = true := by decide +kernel

theorem letters_apart_digits : letters.apart [(0x2E, 0x2E), (0x30, 0x39)] = true := by
  decide +kernel

end Text

namespace Token

theorem isDigit_iff (c : Char) : Decimal.isDigit c = true ↔ 0x30 ≤ c.toNat ∧ c.toNat ≤ 0x39 := by
  simp only [Decimal.isDigit, Bool.and_eq_true, decide_eq_true_eq]
  exact Iff.rfl

theorem isNumberPart_contains {c : Char} (part : isNumberPart c = true) :
    Text.Ranges.contains [(0x2E, 0x2E), (0x30, 0x39)] c = true := by
  rw [isNumberPart, Bool.or_eq_true, isDigit_iff, beq_iff_eq] at part
  rw [Text.Ranges.contains_iff]
  rcases part with digit | rfl
  · exact ⟨(0x30, 0x39), by simp, digit⟩
  · exact ⟨(0x2E, 0x2E), by simp, by decide⟩

theorem not_isNumberPart_of_isIdentifierStart {c : Char} (start : isIdentifierStart c = true) :
    isNumberPart c = false := by
  rw [Bool.eq_false_iff]
  intro part
  rw [isIdentifierStart, Bool.or_eq_true, beq_iff_eq] at start
  rcases start with letter | rfl
  · have outside := Text.Ranges.not_contains_of_apart Text.letters_apart_digits letter
    rw [isNumberPart_contains part] at outside
    cases outside
  · revert part
    decide

theorem not_isBlank_of_isIdentifierStart {c : Char} (start : isIdentifierStart c = true) :
    Text.isBlank c = false := by
  rw [isIdentifierStart, Bool.or_eq_true, beq_iff_eq] at start
  rcases start with letter | rfl
  · exact Text.Ranges.not_contains_of_apart Text.letters_apart_blanks letter
  · decide

theorem not_isBlank_of_isNumberPart {c : Char} (part : isNumberPart c = true) :
    Text.isBlank c = false :=
  Text.Ranges.not_contains_of_apart (by decide) (isNumberPart_contains part)

/-- A text that can name something. -/
def isIdentifier (name : String) : Bool :=
  match name.toList with
  | [] => false
  | c :: rest => isIdentifierStart c && rest.all isIdentifierPart

theorem isIdentifier_run {c : Char} (start : isIdentifierStart c = true) (rest : List Char) :
    isIdentifier (String.ofList (c :: rest.takeWhile isIdentifierPart)) = true := by
  simp only [isIdentifier, String.toList_ofList, start, Bool.true_and, List.all_takeWhile]

/-- No number or identifier runs on into this text. -/
def endsRun (cs : List Char) : Bool :=
  !cs.head?.any fun c => isNumberPart c || isIdentifierPart c

theorem endsRun_cons {c : Char} (ends : (isNumberPart c || isIdentifierPart c) = false)
    (cs : List Char) : endsRun (c :: cs) = true := by
  simp only [endsRun, List.head?_cons, Option.any_some, ends, Bool.not_false]

/-- A text is cut into certain lexemes, wherever it starts. -/
def Scans (cs : List Char) (ts : List Lexeme) : Prop :=
  ∀ position, ∃ tokens, scanFrom position cs = .ok tokens ∧ tokens.map Token.lexeme = ts

theorem scans_nil : Scans [] [] := by
  intro position
  refine ⟨[], ?_, rfl⟩
  rw [scanFrom]

theorem Scans.blank {cs : List Char} {ts : List Lexeme} {c : Char} (scans : Scans cs ts)
    (blank : Text.isBlank c = true) : Scans (c :: cs) ts := by
  intro position
  obtain ⟨tokens, scanned, same⟩ := scans (position + 1)
  refine ⟨tokens, ?_, same⟩
  rw [scanFrom, blank]
  exact scanned

theorem Scans.sign {cs : List Char} {ts : List Lexeme} {c : Char} {t : Lexeme}
    (scans : Scans cs ts) (sign : Lexeme.ofSign? c = some t)
    (plain : (Text.isBlank c || isNumberPart c || isIdentifierStart c) = false) :
    Scans (c :: cs) (t :: ts) := by
  simp only [Bool.or_eq_false_iff] at plain
  obtain ⟨⟨notBlank, notNumber⟩, notName⟩ := plain
  intro position
  obtain ⟨tokens, scanned, same⟩ := scans (position + 1)
  refine ⟨⟨t, position⟩ :: tokens, ?_, by rw [List.map_cons, same]⟩
  rw [scanFrom]
  simp only [notBlank, notNumber, notName, Bool.false_eq_true, ↓reduceIte, sign, scanned]
  rfl

/-- The run at the start of a text is as long as it can be. -/
theorem span_run {p : Char → Bool} {run cs : List Char} (all : run.all p = true)
    (ends : cs.head?.any p = false) :
    (run ++ cs).takeWhile p = run ∧ (run ++ cs).dropWhile p = cs := by
  have whole : ∀ c ∈ run, p c = true := List.all_eq_true.1 all
  rw [List.takeWhile_append_of_pos whole, List.dropWhile_append_of_pos whole]
  cases cs with
  | nil => simp
  | cons c cs =>
      have stops : p c = false := ends
      simp [stops]

theorem not_part_of_endsRun {cs : List Char} (ends : endsRun cs = true) :
    cs.head?.any isNumberPart = false ∧ cs.head?.any isIdentifierPart = false := by
  cases cs with
  | nil => exact ⟨rfl, rfl⟩
  | cons c cs => simpa [endsRun] using ends

theorem Scans.number {cs : List Char} {ts : List Lexeme} {run : List Char} (scans : Scans cs ts)
    (parts : run.all isNumberPart = true) (number : isNumber run = true)
    (ends : endsRun cs = true) : Scans (run ++ cs) (.number (String.ofList run) :: ts) := by
  intro position
  cases run with
  | nil => cases number
  | cons c run =>
      rw [List.all_cons, Bool.and_eq_true] at parts
      obtain ⟨first, more⟩ := parts
      obtain ⟨taken, dropped⟩ := span_run more (not_part_of_endsRun ends).1
      obtain ⟨tokens, scanned, same⟩ := scans (position + (c :: run).length)
      refine ⟨⟨.number (String.ofList (c :: run)), position⟩ :: tokens, ?_,
        by rw [List.map_cons, same]⟩
      rw [List.cons_append, scanFrom]
      simp only [not_isBlank_of_isNumberPart first, first, Bool.false_eq_true, ↓reduceIte, taken,
        dropped, number, scanned]
      rfl

theorem Scans.identifier {cs : List Char} {ts : List Lexeme} {name : String} (scans : Scans cs ts)
    (legal : isIdentifier name = true) (ends : endsRun cs = true) :
    Scans (name.toList ++ cs) (.identifier name :: ts) := by
  intro position
  rw [isIdentifier] at legal
  split at legal
  · cases legal
  · next c run spelled =>
      rw [Bool.and_eq_true] at legal
      obtain ⟨first, more⟩ := legal
      obtain ⟨taken, dropped⟩ := span_run more (not_part_of_endsRun ends).2
      obtain ⟨tokens, scanned, same⟩ := scans (position + (c :: run).length)
      refine ⟨⟨.identifier name, position⟩ :: tokens, ?_, by rw [List.map_cons, same]⟩
      have whole : String.ofList (c :: run) = name := by
        rw [← spelled, String.ofList_toList]
      rw [spelled, List.cons_append, scanFrom]
      simp only [not_isBlank_of_isIdentifierStart first,
        not_isNumberPart_of_isIdentifierStart first, first, Bool.false_eq_true, ↓reduceIte, taken,
        dropped, scanned, whole]
      rfl

end Token

end Formula
