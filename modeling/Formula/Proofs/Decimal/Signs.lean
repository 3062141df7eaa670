import Formula.Proofs.Decimal.ReadBack

/-!
Signs, zeros and infinities of doubles. Negation turns the sign of the binary fraction, and numbers
that are equal have the same sign, apart from the two zeros. What is no infinity is a binary fraction
or no number.
-/

set_option autoImplicit false

namespace Formula.Decimal

open Float.Model (UnpackedFloat Format)
open Float.Model.UnpackedFloat

/-! ### Negation -/

/-- A binary fraction with the other sign. -/
def Binary.flip (b : Binary) : Binary := { b with negative := !b.negative }

theorem Binary.canonical_flip {b : Binary} (canonical : b.Canonical) : b.flip.Canonical :=
  ⟨canonical.bounded, canonical.least, canonical.greatest, canonical.normal⟩

theorem Binary.neg_unpacked (b : Binary) : b.unpacked.neg = b.flip.unpacked := by
  obtain ⟨negative, significand, exponent⟩ := b
  by_cases zero : significand = 0
  · cases negative <;> simp [unpacked, flip, zero, UnpackedFloat.neg, signOf] <;> rfl
  · cases negative <;> simp [unpacked, flip, zero, UnpackedFloat.neg, signOf] <;> rfl

theorem neg_of_decode {x : Float} {b : Binary} (decoded : decode x = .finite b) :
    -x = b.flip.toFloat := by
  have negated : -x = .ofModel (.pack x.toModel.unpack.neg) := rfl
  rw [negated, unpack_eq, decoded, Decoded.unpacked, Binary.neg_unpacked]
  rfl

theorem Binary.abs_unpacked (b : Binary) : b.unpacked.abs = b.abs.unpacked := by
  obtain ⟨negative, significand, exponent⟩ := b
  by_cases zero : significand = 0
  · simp [unpacked, Binary.abs, zero, UnpackedFloat.abs, signOf]
  · simp [unpacked, Binary.abs, zero, UnpackedFloat.abs, signOf]

theorem abs_of_decode {x : Float} {b : Binary} (decoded : decode x = .finite b) :
    x.abs = b.abs.toFloat := by
  have size : x.abs = .ofModel (.pack x.toModel.unpack.abs) := rfl
  rw [size, unpack_eq, decoded, Decoded.unpacked, Binary.abs_unpacked]
  rfl

/-- The text of a constant below zero, read without its sign, is the number that it negates. -/
theorem neg_readUnsigned_sizeChars {x : Float} {b : Binary} (decoded : decode x = .finite b)
    (negative : b.negative = true) : -readUnsigned (sizeChars x) = x := by
  have canonical := canonical_of_decode decoded
  have size : sizeChars x = b.sizeChars := by
    rw [sizeChars, decoded]
  have turned : b.abs.flip = b := by
    obtain ⟨_, significand, exponent⟩ := b
    cases negative
    rfl
  rw [size, Binary.readUnsigned_sizeChars canonical,
    neg_of_decode (decode_toFloat (Binary.canonical_abs canonical)), turned]
  exact (eq_toFloat_of_decode decoded).symm

/-- What is read without a sign is not below zero. -/
theorem not_isBelowZero_readUnsigned {x : Float} {b : Binary} (decoded : decode x = .finite b) :
    isBelowZero (readUnsigned (sizeChars x)) = false := by
  have canonical := canonical_of_decode decoded
  have size : sizeChars x = b.sizeChars := by
    rw [sizeChars, decoded]
  rw [size, Binary.readUnsigned_sizeChars canonical, isBelowZero,
    decode_toFloat (Binary.canonical_abs canonical)]
  rfl

/-! ### Comparison -/

theorem decode_nan : decode Float.nan = .nan := rfl

theorem decode_zero : decode 0.0 = .finite ⟨false, 0, -1074⟩ := rfl

theorem decode_neg_zero : decode (-0.0) = .finite ⟨true, 0, -1074⟩ := rfl

/-- There is one double that is no number. -/
theorem eq_nan_of_isNaN {x : Float} (nan : x.isNaN = true) : x = .nan := by
  rwa [Float.isNaN_eq_decide_eq_nan, decide_eq_true_eq] at nan

theorem isBelowZero_of_isNaN {x : Float} (nan : x.isNaN = true) : isBelowZero x = false := by
  rw [eq_nan_of_isNaN nan, isBelowZero, decode_nan]

theorem isBelowZero_zero : isBelowZero 0.0 = false := by
  rw [isBelowZero, decode_zero]
  rfl

theorem isBelowZero_neg_zero : isBelowZero (-0.0) = false := by
  rw [isBelowZero, decode_neg_zero]
  rfl

/-- Equal numbers are both below zero, or neither is. -/
theorem isBelowZero_of_beq {x y : Float} (equal : (x == y) = true) :
    isBelowZero x = isBelowZero y := by
  obtain ⟨-, -, rfl | ⟨rfl, rfl⟩ | ⟨rfl, rfl⟩⟩ := Float.beq_iff_ne_nan_and_eq.1 equal
  · rfl
  · exact isBelowZero_zero.trans isBelowZero_neg_zero.symm
  · exact isBelowZero_neg_zero.trans isBelowZero_zero.symm

theorem beq_self_of_decode {x : Float} {b : Binary} (decoded : decode x = .finite b) :
    (x == x) = true := by
  rw [Float.beq_self_iff]
  intro nan
  rw [nan, decode_nan] at decoded
  cases decoded

/-! ### Zeros -/

theorem eq_zero_of_beq {x : Float} (equal : (x == 0.0) = true) : x = 0.0 ∨ x = -0.0 := by
  obtain ⟨-, -, same | ⟨same, -⟩ | ⟨same, -⟩⟩ := Float.beq_iff_ne_nan_and_eq.1 equal
  · exact .inl same
  · exact .inl same
  · exact .inr same

theorem decode_of_beq_zero {x : Float} (equal : (x == 0.0) = true) :
    ∃ negative, decode x = .finite ⟨negative, 0, -1074⟩ := by
  rcases eq_zero_of_beq equal with rfl | rfl
  · exact ⟨false, decode_zero⟩
  · exact ⟨true, decode_neg_zero⟩

theorem eq_one_of_beq {x : Float} (equal : (x == 1.0) = true) : x = 1.0 := by
  obtain ⟨-, -, same | ⟨-, zero⟩ | ⟨-, zero⟩⟩ := Float.beq_iff_ne_nan_and_eq.1 equal
  · exact same
  · exact absurd zero (by decide)
  · exact absurd zero (by decide)

theorem decode_one : decode 1.0 = .finite ⟨false, 2 ^ 52, -52⟩ := rfl

theorem decode_two : decode 2.0 = .finite ⟨false, 2 ^ 52, -51⟩ := rfl

theorem beq_zero_of_significand {x : Float} {b : Binary} (decoded : decode x = .finite b)
    (zero : b.significand = 0) : (x == 0.0) = true := by
  have equal : (x.toModel.unpack.compare (0.0 : Float).toModel.unpack == some .eq) = true := by
    rw [unpack_eq, unpack_eq, decoded, decode_zero, Decoded.unpacked, Binary.unpacked,
      dif_pos zero]
    rfl
  exact equal

/-- A positive zero in place of a negative one. -/
def positiveZero (x : Float) : Float := if x == 0.0 then 0.0 else x

theorem positiveZero_of_isBelowZero {x : Float} (below : isBelowZero x = true) :
    positiveZero x = x := by
  rw [positiveZero, if_neg]
  intro zero
  have same := isBelowZero_of_beq zero
  rw [below, isBelowZero_zero] at same
  cases same

/-- The text of a constant not below zero is read as this constant, but a negative zero as zero. -/
theorem readUnsigned_sizeChars_of_not_below {x : Float} {b : Binary}
    (decoded : decode x = .finite b) (above : isBelowZero x = false) :
    readUnsigned (sizeChars x) = positiveZero x := by
  simp only [isBelowZero, decoded, Binary.isBelowZero, Bool.and_eq_false_iff] at above
  by_cases zero : b.significand = 0
  · have least := (canonical_of_decode decoded).normal.resolve_left (by omega)
    have none : b.abs = ⟨false, 0, -1074⟩ := by
      rw [Binary.abs, zero, least]
    rw [sizeChars, decoded, positiveZero, if_pos (beq_zero_of_significand decoded zero)]
    simp only
    rw [Binary.readUnsigned_sizeChars (canonical_of_decode decoded), none]
    exact (eq_toFloat_of_decode decode_zero).symm
  · have plain : b.negative = false := above.resolve_right (by simpa using zero)
    rw [readUnsigned_sizeChars decoded plain, positiveZero, if_neg]
    intro equal
    obtain ⟨negative, none⟩ := decode_of_beq_zero equal
    cases none.symm.trans decoded
    exact zero rfl

theorem isInf_toFloat {b : Binary} (canonical : b.Canonical) : b.toFloat.isInf = false := by
  have model : b.toFloat.isInf = b.toFloat.toModel.unpack.isInf := rfl
  rw [model, unpack_eq, decode_toFloat canonical, Decoded.unpacked, Binary.unpacked]
  split <;> rfl

theorem isInf_pack_zero (sign : Sign) : (Float.ofModel (.pack (.zero sign))).isInf = false := by
  cases sign <;> rfl

theorem isInf_pack_finite (sign : Sign) {b : Binary} (canonical : b.Canonical)
    (positive : 0 < b.significand) :
    (Float.ofModel (.pack (.finite sign b.significand b.exponent positive))).isInf = false := by
  have signed : signOf (sign == .negative) = sign := by cases sign <;> rfl
  have packed := isInf_toFloat (b := { b with negative := sign == .negative })
    ⟨canonical.bounded, canonical.least, canonical.greatest, canonical.normal⟩
  rw [Binary.toFloat, Binary.unpacked_of_pos (by exact positive)] at packed
  exact signed ▸ packed

theorem isFinite_of_decode {x : Float} {b : Binary} (decoded : decode x = .finite b) :
    x.isFinite = true := by
  have model : x.isFinite = x.toModel.unpack.isFinite := rfl
  rw [model, unpack_eq, decoded, Decoded.unpacked, Binary.unpacked]
  split <;> rfl

theorem decode_of_isFinite {x : Float} (finite : x.isFinite = true) :
    ∃ b, decode x = .finite b := by
  have model : x.isFinite = x.toModel.unpack.isFinite := rfl
  rw [model, unpack_eq] at finite
  cases decoded : decode x with
  | nan => rw [decoded] at finite; cases finite
  | infinite negative => rw [decoded] at finite; cases finite
  | finite b => exact ⟨b, rfl⟩

theorem unpack_of_isFinite {x : Float} (finite : x.isFinite = true) :
    (∃ s, x.toModel.unpack = .zero s) ∨
      ∃ (s : Sign) (b : Binary) (positive : 0 < b.significand), b.Canonical ∧
        x.toModel.unpack = .finite s b.significand b.exponent positive := by
  obtain ⟨b, decoded⟩ := decode_of_isFinite finite
  rw [unpack_eq, decoded, Decoded.unpacked]
  by_cases none : b.significand = 0
  · rw [Binary.unpacked, dif_pos none]
    exact .inl ⟨_, rfl⟩
  · have positive := Nat.pos_of_ne_zero none
    rw [Binary.unpacked_of_pos positive]
    exact .inr ⟨_, b, positive, canonical_of_decode decoded, rfl⟩

theorem isInf_of_isFinite {x : Float} (finite : x.isFinite = true) : x.isInf = false := by
  obtain ⟨b, decoded⟩ := decode_of_isFinite finite
  rw [eq_toFloat_of_decode decoded]
  exact isInf_toFloat (canonical_of_decode decoded)

theorem eq_nan_of_decode {x : Float} (decoded : decode x = .nan) : x = .nan := by
  have model : x.isNaN = x.toModel.unpack.isNaN := rfl
  apply eq_nan_of_isNaN
  rw [model, unpack_eq, decoded]
  rfl

/-- A double that is no infinity is finite or no number. -/
theorem decode_of_not_isInf {x : Float} (bounded : x.isInf = false) :
    (∃ b, decode x = .finite b) ∨ x = .nan := by
  cases decoded : decode x with
  | nan => exact .inr (eq_nan_of_decode decoded)
  | finite b => exact .inl ⟨b, rfl⟩
  | infinite negative =>
      have model : x.isInf = x.toModel.unpack.isInf := rfl
      rw [model, unpack_eq, decoded] at bounded
      cases bounded

theorem eq_of_unpack {x y : Float} (same : x.toModel.unpack = y.toModel.unpack) : x = y := by
  have bits := (unpack_inj_of_valid x.toModel.valid y.toModel.valid).1 same
  exact Float.toBits_inj.1 (UInt64.toBitVec_inj.1 bits)

theorem neg_twice (x : Float) : -(-x) = x := by
  cases decoded : decode x with
  | nan =>
      rw [eq_nan_of_decode decoded]
      rfl
  | infinite negative =>
      have infinity : x = .ofModel (.pack (.infinity (signOf negative))) := by
        apply eq_of_unpack
        rw [unpack_eq, decoded]
        cases negative <;> rfl
      rw [infinity]
      cases negative <;> rfl
  | finite b =>
      have flipped := decode_toFloat (Binary.canonical_flip (canonical_of_decode decoded))
      rw [neg_of_decode decoded, neg_of_decode flipped, eq_toFloat_of_decode decoded]
      rw [Binary.flip, Binary.flip, Bool.not_not]

theorem isInf_neg {x : Float} (bounded : x.isInf = false) : (-x).isInf = false := by
  rcases decode_of_not_isInf bounded with ⟨b, decoded⟩ | rfl
  · rw [neg_of_decode decoded]
    exact isInf_toFloat (Binary.canonical_flip (canonical_of_decode decoded))
  · rfl

theorem isInf_abs {x : Float} (bounded : x.isInf = false) : x.abs.isInf = false := by
  rcases decode_of_not_isInf bounded with ⟨b, decoded⟩ | rfl
  · rw [abs_of_decode decoded]
    exact isInf_toFloat (Binary.canonical_abs (canonical_of_decode decoded))
  · rfl

end Formula.Decimal
