import Formula.Decimal.Shortest

/-!
Reading decimals as doubles, correctly rounded.
-/

set_option autoImplicit false

namespace Formula.Decimal

def infinity : Float := Float.ofBits 0x7FF0000000000000

def notANumber : Float := Float.ofBits 0x7FF8000000000000

/-- The double nearest to `coefficient · 10 ^ exponent`, ties to even. Beyond the range of
doubles the answer needs no arithmetic. -/
def Scaled.toDouble (d : Scaled) : Float :=
  if d.coefficient = 0 then 0.0
  else
    let magnitude := (digitCount d.coefficient : Int) + d.exponent
    if magnitude > 400 then infinity
    else if magnitude < -400 then 0.0
    else match d.exponent with
      | .ofNat e => Float.ofScientific d.coefficient false e
      | .negSucc e => Float.ofScientific d.coefficient true (e + 1)

def ofInteger (n : Int) : Float :=
  let size := Scaled.toDouble ⟨n.natAbs, 0⟩
  if n < 0 then -size else size

def isDigit (c : Char) : Bool := '0' ≤ c && c ≤ '9'

def digitValue (c : Char) : Nat := c.toNat - 48

/-- The number that a row of digits writes. -/
def valueOf (digits : List Char) : Nat :=
  digits.foldl (fun n c => 10 * n + digitValue c) 0

def ofParts (whole fraction : List Char) : Scaled :=
  ⟨valueOf (whole ++ fraction), -(fraction.length : Int)⟩

/-- Digits around at most one point: what stands before the point and what stands after it. -/
def splitPoint (cs : List Char) : List Char × List Char :=
  (cs.takeWhile isDigit, ((cs.dropWhile isDigit).drop 1))

def readUnsigned (cs : List Char) : Float :=
  (ofParts (splitPoint cs).1 (splitPoint cs).2).toDouble

def splitSign : List Char → Bool × List Char
  | '-' :: rest => (true, rest)
  | '+' :: rest => (false, rest)
  | cs => (false, cs)

/-- An exponent with an optional sign; it needs a digit. -/
def readExponent? (cs : List Char) : Option Int :=
  let (negative, digits) := splitSign cs
  if digits.isEmpty || !digits.all isDigit then none
  else some (signed negative (valueOf digits))

/-- A decimal without sign: digits, a point and more digits, an exponent. -/
def readScaled? (cs : List Char) : Option Scaled :=
  let whole := cs.takeWhile isDigit
  let afterWhole := cs.dropWhile isDigit
  let (fraction, rest) := match afterWhole with
    | '.' :: more => (more.takeWhile isDigit, more.dropWhile isDigit)
    | more => ([], more)
  if whole.isEmpty && fraction.isEmpty then none
  else
    let mantissa := ofParts whole fraction
    match rest with
    | [] => some mantissa
    | c :: digits =>
      if c = 'e' || c = 'E' then
        (readExponent? digits).map fun e => ⟨mantissa.coefficient, mantissa.exponent + e⟩
      else none

/-- A double from its text: a decimal with an optional sign, or the name of an infinity or of no
number, in letters of either case. -/
def readDouble? (cs : List Char) : Option Float :=
  let (negative, body) := splitSign cs
  let size := match String.ofList (body.map Char.toLower) with
    | "inf" | "infinity" => some infinity
    | "nan" => some notANumber
    | _ => (readScaled? body).map Scaled.toDouble
  size.map fun x => if negative then -x else x

end Formula.Decimal
