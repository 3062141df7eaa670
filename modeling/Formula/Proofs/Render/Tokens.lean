import Formula.Proofs.Render.Written
import Formula.Proofs.Token.Segmentation

/-!
The tokens of a rendered expression. Every piece of the text ends where a blank, a comma, a
parenthesis or nothing follows, so the text is cut into the lexemes it was made of. Its parentheses
are nested no deeper than the tree.
-/

set_option autoImplicit false

namespace Formula.Expr

open Decimal (isBelowZero sizeChars)
open Token (Scans endsRun)

/-- A node that can be written: a constant is finite, and a name is one for the scanner. -/
def IsWritable : Expr → Prop
  | .const value => ∃ b, Decimal.decode value = .finite b
  | .var name | .call name _ => Token.isIdentifier name = true
  | .bin .. | .neg _ => True

theorem scans_constant {value : Float} (finite : IsWritable (.const value)) {cs : List Char}
    {ts : List Lexeme} (rest : Scans cs ts) (ends : endsRun cs = true) :
    Scans ((Expr.const value).render.toList ++ cs) ((Expr.const value).written ++ ts) := by
  obtain ⟨b, decoded⟩ := finite
  obtain ⟨parts, number⟩ := Decimal.isNumeral_sizeChars decoded
  have size := rest.number parts number ends
  rw [render, Decimal.constantText, String.toList_ofList, Decimal.constantChars_eq, written]
  cases isBelowZero value with
  | false => exact size
  | true => exact size.ofSign rfl

theorem scans_bin (op : BinaryOp) {left right cs : List Char} {ts us vs : List Lexeme}
    (first : ∀ {cs ts}, Scans cs ts → endsRun cs = true → Scans (left ++ cs) (us ++ ts))
    (second : ∀ {cs ts}, Scans cs ts → endsRun cs = true → Scans (right ++ cs) (vs ++ ts))
    (rest : Scans cs ts) :
    Scans ('(' :: (left ++ ' ' :: op.symbol :: ' ' :: (right ++ ')' :: cs)))
      (.leftParen :: (us ++ .operator op :: (vs ++ .rightParen :: ts))) := by
  have space : Text.isBlank ' ' = true := by decide
  have sign : Lexeme.ofSign? op.symbol = some (.operator op) := by cases op <;> rfl
  have closing : Scans (')' :: cs) (.rightParen :: ts) := rest.ofSign rfl
  have inside := second closing (Token.endsRun_sign rfl _)
  have operator := (inside.blank space).ofSign sign
  have both := first (operator.blank space) (Token.endsRun_blank space _)
  exact both.ofSign rfl

/-- Arguments with commas between them, in front of the parenthesis that closes them. -/
theorem scans_arguments (arguments : List Expr)
    (each : ∀ a ∈ arguments, ∀ {cs ts}, Scans cs ts → endsRun cs = true →
      Scans (a.render.toList ++ cs) (a.written ++ ts))
    {cs : List Char} {ts : List Lexeme} (rest : Scans cs ts) (ends : endsRun cs = true) :
    Scans ((renderArguments arguments).toList ++ cs) (writtenArguments arguments ++ ts) := by
  induction arguments with
  | nil => exact rest
  | cons e more ih =>
      have first : ∀ {cs ts}, Scans cs ts → endsRun cs = true →
          Scans (e.render.toList ++ cs) (e.written ++ ts) := each e List.mem_cons_self
      cases more with
      | nil => exact first rest ends
      | cons f more =>
          have behind := ih fun a inside => each a (List.mem_cons_of_mem e inside)
          have comma : Scans (',' :: ' ' :: ((renderArguments (f :: more)).toList ++ cs))
              (.comma :: (writtenArguments (f :: more) ++ ts)) :=
            (behind.blank (c := ' ') (by decide)).ofSign rfl
          have whole := first comma (Token.endsRun_sign rfl _)
          have separator : ", ".toList = [',', ' '] := rfl
          simpa only [renderArguments, writtenArguments, String.toList_append, separator,
            List.append_assoc, List.cons_append, List.nil_append] using whole

theorem scans_render (e : Expr) (writable : e.Everywhere IsWritable) {cs : List Char}
    {ts : List Lexeme} (rest : Scans cs ts) (ends : endsRun cs = true) :
    Scans (e.render.toList ++ cs) (e.written ++ ts) := by
  have opened : "(".toList = ['('] := rfl
  have closed : ")".toList = [')'] := rfl
  induction e using Expr.induction generalizing cs ts with
  | const value => exact scans_constant writable.root rest ends
  | var name => exact rest.identifier writable.root ends
  | bin op left right first second =>
      have space : " ".toList = [' '] := rfl
      have sign : op.text.toList = [op.symbol] := by cases op <;> rfl
      have whole := scans_bin op (first writable.left) (second writable.right) rest
      simpa only [render, written, String.toList_append, opened, closed, space, sign,
        List.append_assoc, List.cons_append, List.nil_append] using whole
  | neg operand ih =>
      have minus : "-(".toList = ['-', '('] := rfl
      have closing : Scans (')' :: cs) (.rightParen :: ts) := rest.ofSign rfl
      have inside := ih writable.operand closing (Token.endsRun_sign rfl _)
      have opening := inside.ofSign (c := '(') rfl
      have whole := opening.ofSign (c := '-') rfl
      simpa only [render, written, String.toList_append, minus, closed, List.append_assoc,
        List.cons_append, List.nil_append] using whole
  | call name arguments ih =>
      have closing : Scans (')' :: cs) (.rightParen :: ts) := rest.ofSign rfl
      have inside := scans_arguments arguments
        (fun a among cs ts => ih a among (writable.argument among)) closing
        (Token.endsRun_sign rfl _)
      have opening := inside.ofSign (c := '(') rfl
      have whole := opening.identifier writable.root (Token.endsRun_sign rfl _)
      simpa only [render, written, String.toList_append, opened, closed, List.append_assoc,
        List.cons_append, List.nil_append] using whole

theorem scan_render (e : Expr) (writable : e.Everywhere IsWritable) :
    ∃ tokens, Token.scan e.render = .ok tokens ∧ tokens.map Token.lexeme = e.written := by
  have whole := scans_render e writable Token.scans_nil rfl
  rw [List.append_nil, List.append_nil] at whole
  exact whole 0

/-! ### Nesting -/

open Lexeme (deepestOpen nesting)

/-- A row of lexemes opens so many parentheses at once and closes all of them. -/
def Nests (ts : List Lexeme) (levels : Nat) : Prop :=
  ∀ (opened : Nat) (rest : List Lexeme),
    deepestOpen opened (ts ++ rest) ≤ max (opened + levels) (deepestOpen opened rest)

theorem nests_nil : Nests [] 0 := fun _ _ => Nat.le_max_right _ _

theorem Nests.mono {ts : List Lexeme} {m n : Nat} (nests : Nests ts m) (le : m ≤ n) :
    Nests ts n := by
  intro opened rest
  have within := nests opened rest
  omega

theorem Nests.append {ts us : List Lexeme} {n : Nat} (first : Nests ts n) (second : Nests us n) :
    Nests (ts ++ us) n := by
  intro opened rest
  have left := first opened (us ++ rest)
  have right := second opened rest
  rw [List.append_assoc]
  omega

theorem Nests.parenthesised {ts : List Lexeme} {n : Nat} (inside : Nests ts n) :
    Nests (.leftParen :: ts ++ [.rightParen]) (1 + n) := by
  intro opened rest
  have within := inside (opened + 1) (.rightParen :: rest)
  simp only [List.cons_append, List.append_assoc, List.nil_append, deepestOpen,
    Nat.add_sub_cancel] at within ⊢
  omega

theorem Nests.flat {t : Lexeme} (flat : ∀ opened rest,
    deepestOpen opened (t :: rest) = deepestOpen opened rest) {ts : List Lexeme} {n : Nat}
    (nests : Nests ts n) : Nests (t :: ts) n := by
  intro opened rest
  rw [List.cons_append, flat]
  exact nests opened rest

theorem nests_writtenArguments (arguments : List Expr)
    (each : ∀ a ∈ arguments, Nests a.written a.height) :
    Nests (writtenArguments arguments) (heightAll arguments) := by
  induction arguments with
  | nil => exact nests_nil
  | cons e more ih =>
      have first := each e List.mem_cons_self
      cases more with
      | nil => exact first.mono (Nat.le_max_left _ _)
      | cons f more =>
          have behind := ih fun a inside => each a (List.mem_cons_of_mem e inside)
          rw [writtenArguments, heightAll]
          · exact (first.mono (Nat.le_max_left _ _)).append
              ((behind.mono (Nat.le_max_right _ _)).flat fun _ _ => rfl)
          · exact List.cons_ne_nil f more

theorem nests_written (e : Expr) : Nests e.written e.height := by
  induction e using Expr.induction with
  | const value =>
      have number : Nests [.number (String.ofList (sizeChars value))] 1 :=
        (nests_nil.mono (Nat.zero_le 1)).flat fun _ _ => rfl
      rw [written]
      split
      · exact number.flat fun _ _ => rfl
      · exact number
  | var name => exact (nests_nil.mono (Nat.zero_le 1)).flat fun _ _ => rfl
  | bin op left right first second =>
      have both : Nests (left.written ++ .operator op :: right.written)
          (max left.height right.height) :=
        (first.mono (Nat.le_max_left _ _)).append
          ((second.mono (Nat.le_max_right _ _)).flat fun _ _ => rfl)
      exact both.parenthesised
  | neg operand ih => exact ih.parenthesised.flat fun _ _ => rfl
  | call name arguments ih =>
      exact (nests_writtenArguments arguments ih).parenthesised.flat fun _ _ => rfl

theorem nesting_written_le (e : Expr) : nesting e.written ≤ e.depth := by
  have whole := nests_written e 0 []
  have empty : deepestOpen 0 [] = 0 := rfl
  rw [List.append_nil, empty] at whole
  rw [depth_eq_height, nesting]
  omega

end Formula.Expr
