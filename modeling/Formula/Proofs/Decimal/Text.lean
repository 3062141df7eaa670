import Mathlib.Algebra.Order.Field.Rat
import Mathlib.Tactic.FieldSimp
import Mathlib.Tactic.Ring
import Formula.Decimal.Layout
import Formula.Proofs.Scan

/-!
What the text of a constant writes. Digits with a point among them are a number for the scanner, and
read without rounding they are the decimal that was laid out.
-/

set_option autoImplicit false

namespace Formula.Decimal

open Token (isNumberPart isNumber)

/-- The number that a decimal stands for. -/
def Scaled.value (d : Scaled) : ℚ := d.coefficient * 10 ^ d.exponent

/-- The decimal that digits around at most one point write. -/
def readScaled (cs : List Char) : Scaled := ofParts (splitPoint cs).1 (splitPoint cs).2

theorem readUnsigned_eq (cs : List Char) : readUnsigned cs = (readScaled cs).toDouble := rfl

/-- A text is one number for the scanner. -/
def IsNumeral (cs : List Char) : Prop := cs.all isNumberPart = true ∧ isNumber cs = true

/-! ### Rows of digits -/

theorem digitsOf_isDigit (n : Nat) : (digitsOf n).all isDigit = true := by
  rw [List.all_eq_true]
  intro c inside
  have digit := Nat.isDigit_of_mem_toDigits (by decide) (by decide) inside
  rw [Token.isDigit_iff]
  simpa [Char.isDigit, UInt32.le_iff_toNat_le] using digit

theorem valueOf_eq (digits : List Char) : valueOf digits = Nat.ofDigitChars 10 digits 0 := by
  rw [Nat.ofDigitChars_eq_foldl]
  rfl

theorem valueOf_digitsOf (n : Nat) : valueOf (digitsOf n) = n := by
  rw [valueOf_eq, digitsOf, Nat.ofDigitChars_ten_toDigits]

theorem valueOf_zeros_append (k : Nat) (digits : List Char) :
    valueOf (zeros k ++ digits) = valueOf digits := by
  rw [valueOf_eq, valueOf_eq, Nat.ofDigitChars_append, zeros, Nat.ofDigitChars_replicate_zero,
    Nat.mul_zero]

theorem valueOf_append_zeros (digits : List Char) (k : Nat) :
    valueOf (digits ++ zeros k) = 10 ^ k * valueOf digits := by
  rw [valueOf_eq, valueOf_eq, Nat.ofDigitChars_append, zeros, Nat.ofDigitChars_replicate_zero]

theorem zeros_isDigit (k : Nat) : (zeros k).all isDigit = true := by
  rw [List.all_eq_true]
  intro c inside
  rw [List.eq_of_mem_replicate inside]
  decide

theorem point_notin_digits {digits : List Char} (all : digits.all isDigit = true) :
    '.' ∉ digits := by
  intro inside
  have digit := List.all_eq_true.1 all _ inside
  revert digit
  decide

theorem all_isNumberPart {digits : List Char} (all : digits.all isDigit = true) :
    digits.all isNumberPart = true := by
  rw [List.all_eq_true] at all ⊢
  intro c inside
  rw [isNumberPart, all c inside, Bool.true_or]

theorem isNumeral_digits {digits : List Char} (all : digits.all isDigit = true)
    (present : digits ≠ []) : IsNumeral digits := by
  refine ⟨all_isNumberPart all, ?_⟩
  obtain ⟨c, rest, rfl⟩ := List.exists_cons_of_ne_nil present
  rw [isNumber, List.count_eq_zero_of_not_mem (point_notin_digits all), List.any_cons]
  rw [List.all_cons, Bool.and_eq_true] at all
  rw [all.1]
  rfl

theorem isNumeral_pointed {whole fraction : List Char} (first : whole.all isDigit = true)
    (second : fraction.all isDigit = true) (present : whole ≠ []) :
    IsNumeral (whole ++ '.' :: fraction) := by
  obtain ⟨parts, number⟩ := isNumeral_digits first present
  rw [isNumber, Bool.and_eq_true] at number
  refine ⟨?_, ?_⟩
  · rw [List.all_append, List.all_cons, parts, all_isNumberPart second]
    rfl
  · rw [isNumber, List.count_append, List.count_cons_self,
      List.count_eq_zero_of_not_mem (point_notin_digits first),
      List.count_eq_zero_of_not_mem (point_notin_digits second), List.any_append, number.2]
    rfl

theorem readScaled_digits {digits : List Char} (all : digits.all isDigit = true) :
    readScaled digits = ⟨valueOf digits, 0⟩ := by
  have ends : ([] : List Char).head?.any isDigit = false := rfl
  obtain ⟨taken, dropped⟩ := Token.span_run all ends
  rw [List.append_nil] at taken dropped
  rw [readScaled, splitPoint, taken, dropped]
  simp only [List.drop_nil, ofParts, List.append_nil, List.length_nil]
  rfl

theorem readScaled_pointed {whole : List Char} (fraction : List Char)
    (all : whole.all isDigit = true) :
    readScaled (whole ++ '.' :: fraction) =
      ⟨valueOf (whole ++ fraction), -(fraction.length : Int)⟩ := by
  have ends : ('.' :: fraction).head?.any isDigit = false := (by decide : isDigit '.' = false)
  obtain ⟨taken, dropped⟩ := Token.span_run all ends
  rw [readScaled, splitPoint, taken, dropped]
  rfl

/-! ### Digits with a point -/

/-- The three ways to place a point: in front of the digits, among them and behind them. -/
theorem placePoint_cases (digits : List Char) (point : Int) :
    (∃ k : Nat, point = -(k : Int) ∧
      placePoint false digits point = '0' :: '.' :: (zeros k ++ digits)) ∨
    (∃ k : Nat, point = (k : Int) ∧ 0 < k ∧ k < digits.length ∧
      placePoint false digits point = digits.take k ++ '.' :: digits.drop k) ∨
    (∃ k : Nat, point = (digits.length + k : Nat) ∧ 0 < digits.length + k ∧
      placePoint false digits point = digits ++ zeros k) := by
  match point with
  | .negSucc n => exact .inl ⟨n + 1, rfl, rfl⟩
  | .ofNat 0 => exact .inl ⟨0, rfl, rfl⟩
  | .ofNat (n + 1) =>
      by_cases among : n + 1 < digits.length
      · refine .inr (.inl ⟨n + 1, rfl, Nat.succ_pos n, among, ?_⟩)
        simp only [placePoint, among, ↓reduceIte]
      · refine .inr (.inr ⟨n + 1 - digits.length, ?_, ?_, ?_⟩)
        · exact congrArg Int.ofNat (by omega)
        · omega
        · simp only [placePoint, among, Bool.false_eq_true, ↓reduceIte, List.append_nil]

theorem isNumeral_placePoint {digits : List Char} (all : digits.all isDigit = true)
    (present : digits ≠ []) (point : Int) : IsNumeral (placePoint false digits point) := by
  rcases placePoint_cases digits point with
    ⟨k, -, written⟩ | ⟨k, -, positive, -, written⟩ | ⟨k, -, -, written⟩
  · rw [written]
    have zero : ['0'].all isDigit = true := by decide
    exact isNumeral_pointed zero (by rw [List.all_append, zeros_isDigit, all]; rfl)
      (List.cons_ne_nil _ _)
  · rw [written]
    rw [List.all_eq_true] at all
    apply isNumeral_pointed
    · apply List.all_eq_true.2
      intro c inside
      exact all c (List.mem_of_mem_take inside)
    · apply List.all_eq_true.2
      intro c inside
      exact all c (List.mem_of_mem_drop inside)
    · intro none
      rw [List.take_eq_nil_iff] at none
      rcases none with rfl | none
      · exact absurd positive (Nat.lt_irrefl 0)
      · exact present none
  · rw [written]
    exact isNumeral_digits (by rw [List.all_append, zeros_isDigit, all]; rfl)
      (List.append_ne_nil_of_left_ne_nil present _)

/-- Digits with a point write the decimal that was laid out. -/
theorem value_placePoint (n : Nat) (point : Int) :
    (readScaled (placePoint false (digitsOf n) point)).value =
      n * 10 ^ (point - (digitsOf n).length) := by
  have all := digitsOf_isDigit n
  rcases placePoint_cases (digitsOf n) point with
    ⟨k, rfl, written⟩ | ⟨k, rfl, positive, among, written⟩ | ⟨k, rfl, -, written⟩
  · have zero : ['0'].all isDigit = true := by decide
    have read := readScaled_pointed (zeros k ++ digitsOf n) zero
    rw [List.singleton_append] at read
    rw [written, read, Scaled.value]
    have same : valueOf (['0'] ++ (zeros k ++ digitsOf n)) = n := by
      have padded := valueOf_zeros_append (k + 1) (digitsOf n)
      rw [valueOf_digitsOf] at padded
      exact padded
    rw [same, List.length_append, zeros, List.length_replicate]
    congr 2
    exact (by omega : -((k + (digitsOf n).length : ℕ) : ℤ) = -(k : ℤ) - (digitsOf n).length)
  · have whole : ((digitsOf n).take k).all isDigit = true := by
      rw [List.all_eq_true] at all ⊢
      intro c inside
      exact all c (List.mem_of_mem_take inside)
    rw [written, readScaled_pointed _ whole, Scaled.value, List.take_append_drop, valueOf_digitsOf,
      List.length_drop]
    congr 2
    exact (by omega : -(((digitsOf n).length - k : ℕ) : ℤ) = (k : ℤ) - (digitsOf n).length)
  · have padded : (digitsOf n ++ zeros k).all isDigit = true := by
      rw [List.all_append, all, zeros_isDigit]
      rfl
    rw [written, readScaled_digits padded, Scaled.value, valueOf_append_zeros, valueOf_digitsOf]
    have exponent : ((digitsOf n).length + k : ℕ) - ((digitsOf n).length : ℤ) = k := by omega
    rw [exponent, zpow_natCast, zpow_zero]
    push_cast
    ring

/-! ### Constants -/

/-- A binary fraction below zero; a negative zero is not. -/
def Binary.isBelowZero (b : Binary) : Bool := b.negative && b.significand != 0

/-- The text of a constant without its sign. -/
def Binary.sizeChars (b : Binary) : List Char :=
  match b.integer? with
  | some n => digitsOf n.natAbs
  | none => Layout.constant.writeSize b

theorem natAbs_signed (negative : Bool) (n : Nat) : (signed negative n).natAbs = n := by
  cases negative
  · exact Int.natAbs_natCast n
  · exact (Int.natAbs_neg _).trans (Int.natAbs_natCast n)

theorem signed_neg_iff (negative : Bool) (n : Nat) :
    decide (signed negative n < 0) = (negative && n != 0) := by
  cases negative with
  | false => simp [signed]
  | true =>
      cases n with
      | zero => rfl
      | succ n => simp [signed]; omega

/-- An integer value has the sign of the fraction, unless it is zero. -/
theorem Binary.integer?_eq_some {b : Binary} {n : Int} (integral : b.integer? = some n) :
    ∃ size, n = signed b.negative size ∧ (size = 0 ↔ b.significand = 0) := by
  obtain ⟨negative, significand, exponent⟩ := b
  cases exponent with
  | ofNat e =>
      refine ⟨significand * 2 ^ e, (Option.some.inj integral).symm, ?_⟩
      exact Nat.mul_eq_zero.trans (or_iff_left (Nat.two_pow_pos e).ne')
  | negSucc e =>
      simp only [integer?] at integral
      split at integral
      · next divides =>
          refine ⟨significand / 2 ^ (e + 1), (Option.some.inj integral).symm, ?_⟩
          have whole := Nat.mul_div_cancel' (Nat.dvd_of_mod_eq_zero divides)
          constructor
          · intro zero
            rw [← whole, zero, Nat.mul_zero]
          · rintro rfl
            exact Nat.zero_div _
      · cases integral

theorem Binary.isBelowZero_of_integer? {b : Binary} {n : Int} (integral : b.integer? = some n) :
    decide (n < 0) = b.isBelowZero := by
  obtain ⟨size, rfl, zero⟩ := integer?_eq_some integral
  rw [signed_neg_iff, isBelowZero]
  congr 1
  rw [Bool.eq_iff_iff, bne_iff_ne, bne_iff_ne, ne_eq, ne_eq, zero]

theorem Binary.isBelowZero_of_fraction {b : Binary} (fractional : b.integer? = none) :
    b.negative = b.isBelowZero := by
  obtain ⟨negative, significand, exponent⟩ := b
  have nonzero : significand ≠ 0 := by
    rintro rfl
    cases exponent <;> simp [integer?] at fractional
  simp [isBelowZero, nonzero]

/-- The text of a finite constant: a minus sign if it is below zero, and its size. -/
theorem constantChars_of_decode {x : Float} {b : Binary} (decoded : decode x = .finite b) :
    constantChars x = withSign b.isBelowZero b.sizeChars := by
  have value : Decimal.integer? x = b.integer? := by
    simp only [Decimal.integer?, decoded]
  rw [constantChars, value, Binary.sizeChars]
  cases integral : b.integer? with
  | some n => simp only [integerChars, Binary.isBelowZero_of_integer? integral]
  | none => simp only [Layout.chars, decoded, Binary.isBelowZero_of_fraction integral]

theorem Binary.isNumeral_sizeChars (b : Binary) : IsNumeral b.sizeChars := by
  rw [sizeChars]
  split
  · exact isNumeral_digits (digitsOf_isDigit _) Nat.toDigits_ne_nil
  · rw [Layout.writeSize]
    split
    · have zero : ['0'].all isDigit = true := by decide
      exact isNumeral_placePoint zero (by decide) 1
    · exact isNumeral_placePoint (digitsOf_isDigit _) Nat.toDigits_ne_nil _

/-- A finite double below zero; a negative zero is not. -/
def isBelowZero (x : Float) : Bool :=
  match decode x with
  | .finite b => b.isBelowZero
  | _ => false

def sizeChars (x : Float) : List Char :=
  match decode x with
  | .finite b => b.sizeChars
  | _ => constantChars x

theorem constantChars_eq (x : Float) :
    constantChars x = withSign (isBelowZero x) (sizeChars x) := by
  rw [isBelowZero, sizeChars]
  split
  · next b decoded => exact constantChars_of_decode decoded
  · rfl

theorem isNumeral_sizeChars {x : Float} {b : Binary} (decoded : decode x = .finite b) :
    IsNumeral (sizeChars x) := by
  rw [sizeChars, decoded]
  exact b.isNumeral_sizeChars

end Formula.Decimal
