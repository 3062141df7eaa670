/-!
Doubles as exact binary fractions. A finite double is `± significand · 2 ^ exponent`; everything
that has to be exact about a double is said of these three numbers.
-/

set_option autoImplicit false

namespace Formula.Decimal

-- The powers here are the core ones, also where a library brings its own.
attribute [local instance (high)] instPowNat

/-- The binary fraction `± significand · 2 ^ exponent`. -/
structure Binary where
  negative : Bool
  significand : Nat
  exponent : Int
  deriving DecidableEq

/-- What the bits of a double stand for. -/
inductive Decoded where
  | nan
  | infinite (negative : Bool)
  | finite (value : Binary)
  deriving DecidableEq

/-- The sign, exponent and fraction fields of a double. -/
def decode (x : Float) : Decoded :=
  let bits : Nat := x.toBits.toNat
  let negative := bits / 2 ^ (63 : Nat) % 2 == 1
  let biased : Nat := bits / 2 ^ (52 : Nat) % 2 ^ (11 : Nat)
  let fraction : Nat := bits % 2 ^ (52 : Nat)
  if biased = 2047 then
    if fraction = 0 then .infinite negative else .nan
  else if biased = 0 then .finite ⟨negative, fraction, -1074⟩
  else .finite ⟨negative, 2 ^ (52 : Nat) + fraction, (biased : Int) - 1075⟩

def signed (negative : Bool) (n : Nat) : Int :=
  if negative then -(n : Int) else n

def Binary.integer? (b : Binary) : Option Int :=
  match b.exponent with
  | .ofNat e => some (signed b.negative (b.significand * 2 ^ e))
  | .negSucc e =>
    if b.significand % 2 ^ (e + 1) = 0 then
      some (signed b.negative (b.significand / 2 ^ (e + 1)))
    else none

def integer? (x : Float) : Option Int :=
  match decode x with
  | .finite b => b.integer?
  | _ => none

end Formula.Decimal
