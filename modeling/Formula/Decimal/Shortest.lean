import Formula.Decimal.Binary

/-!
The shortest decimal that reads back. The reals that round to a double form an interval around
it. Among the decimals in that interval the ones with the fewest digits are taken, of these the
one nearest to the double, and of two equally near ones the one with the even last digit.
-/

set_option autoImplicit false

namespace Formula.Decimal

attribute [local instance (high)] instPowNat

/-- The decimal `coefficient · 10 ^ exponent`. -/
structure Scaled where
  coefficient : Nat
  exponent : Int
  deriving DecidableEq

def digitsOf (n : Nat) : List Char := Nat.toDigits 10 n

def digitCount (n : Nat) : Nat := (digitsOf n).length

/-- The factors by which `significand · 2 ^ exponent` counts in units of `10 ^ unit`: the value
is `significand · fst / snd` such units. -/
def unitFactors (exponent unit : Int) : Nat × Nat :=
  (2 ^ exponent.toNat * 10 ^ (-unit).toNat, 2 ^ (-exponent).toNat * 10 ^ unit.toNat)

/-- The interval of reals that round to a positive double, in quarters of its last place. -/
structure Interval where
  low : Nat
  middle : Nat
  high : Nat
  /-- The ends round to the double, too: ties go to the even significand. -/
  closed : Bool
  deriving DecidableEq

/-- At a power of two the gap below is half the gap above. -/
def Binary.interval (b : Binary) : Interval :=
  { low := if b.significand = 2 ^ (52 : Nat) && b.exponent != -1074 then 4 * b.significand - 1
      else 4 * b.significand - 2
    middle := 4 * b.significand
    high := 4 * b.significand + 2
    closed := b.significand % 2 == 0 }

/-- A point of the grid of `fst / snd` lies in the interval. -/
def Interval.contains (i : Interval) (factors : Nat × Nat) (point : Nat) : Bool :=
  if i.closed then
    i.low * factors.1 ≤ point * factors.2 && point * factors.2 ≤ i.high * factors.1
  else
    i.low * factors.1 < point * factors.2 && point * factors.2 < i.high * factors.1

/-- The point to take on one grid: of the two neighbours of the middle the one that lies in the
interval, of both the nearer, and at a tie the even one. -/
def Interval.pick (i : Interval) (factors : Nat × Nat) : Option Nat :=
  let below := i.middle * factors.1 / factors.2
  let above := below + 1
  match i.contains factors below, i.contains factors above with
  | true, true =>
    let twice := 2 * (i.middle * factors.1)
    let half := (below + above) * factors.2
    if twice < half then some below
    else if half < twice then some above
    else if below % 2 = 0 then some below else some above
  | true, false => some below
  | false, true => some above
  | false, false => none

/-- The position of the decimal point: the least `k` with value below `10 ^ k`. The value is
counted in units so small that even the least positive double holds one. -/
def Binary.pointPosition (b : Binary) : Int :=
  let factors := unitFactors b.exponent (-330)
  (digitCount (b.significand * factors.1 / factors.2) : Int) - 330

/-- Drop trailing zeros from a decimal. The first argument bounds their number. -/
def stripZeros : Nat → Scaled → Scaled
  | 0, d => d
  | bound + 1, d =>
    if d.coefficient ≠ 0 ∧ d.coefficient % 10 = 0 then
      stripZeros bound ⟨d.coefficient / 10, d.exponent + 1⟩
    else d

/-- The first grid, from coarse to fine, with a point in the interval. Seventeen digits always
suffice. -/
def Binary.shortest (b : Binary) : Scaled :=
  let point := b.pointPosition
  let onGrid (digits : Nat) : Option Scaled :=
    let unit := point - ((digits : Int) + 1)
    (b.interval.pick (unitFactors (b.exponent - 2) unit)).map fun c => ⟨c, unit⟩
  match (List.range 17).findSome? onGrid with
  | some d => stripZeros 17 d
  | none => ⟨0, 0⟩

end Formula.Decimal
