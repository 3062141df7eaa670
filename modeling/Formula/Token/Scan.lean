import Formula.Failure
import Formula.Text.Blank
import Formula.Text.Letter
import Formula.Token

/-!
Scanning: a text is cut into tokens from left to right. Numbers and identifiers are as long as
they can be, blanks separate tokens and are dropped, and the first character or number that fits
no token ends the scan.
-/

set_option autoImplicit false

namespace Formula.Token

/-- Numbers are runs of these. A sign or an exponent is not part of a number. -/
def isNumberPart (c : Char) : Bool := Decimal.isDigit c || c == '.'

def isIdentifierStart (c : Char) : Bool := Text.isLetter c || c == '_'

def isIdentifierPart (c : Char) : Bool := isIdentifierStart c || Decimal.isDigit c

/-- A number has a digit and at most one point. -/
def isNumber (run : List Char) : Bool := run.count '.' ≤ 1 && run.any Decimal.isDigit

theorem length_dropWhile_le (p : Char → Bool) (cs : List Char) :
    (cs.dropWhile p).length ≤ cs.length :=
  (List.dropWhile_suffix p).length_le

def followedBy (t : Token) (rest : Except Malformation (List Token)) :
    Except Malformation (List Token) :=
  rest.map (t :: ·)

/-- The tokens of a text that starts at a position. -/
def scanFrom (position : Nat) : List Char → Except Malformation (List Token)
  | [] => .ok []
  | c :: rest =>
    if Text.isBlank c then scanFrom (position + 1) rest
    else if isNumberPart c then
      let run := c :: rest.takeWhile isNumberPart
      if isNumber run then
        followedBy ⟨.number (String.ofList run), position⟩
          (scanFrom (position + run.length) (rest.dropWhile isNumberPart))
      else .error (.malformedNumber (String.ofList run) position)
    else if isIdentifierStart c then
      let run := c :: rest.takeWhile isIdentifierPart
      followedBy ⟨.identifier (String.ofList run), position⟩
        (scanFrom (position + run.length) (rest.dropWhile isIdentifierPart))
    else
      match Lexeme.ofSign? c with
      | some lexeme => followedBy ⟨lexeme, position⟩ (scanFrom (position + 1) rest)
      | none => .error (.illegalCharacter c position)
termination_by cs => cs.length
decreasing_by
  all_goals
    simp only [List.length_cons]
    first
      | exact Nat.lt_succ_self _
      | exact Nat.lt_succ_of_le (length_dropWhile_le _ _)

def scan (text : String) : Except Malformation (List Token) := scanFrom 0 text.toList

end Formula.Token
