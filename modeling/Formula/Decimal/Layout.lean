import Formula.Decimal.Reading

/-!
Decimal texts of doubles. Two layouts are in use: the *plain* one, which turns to exponents for
very large and very small numbers, and the *constant* one, which stays positional so that it can
be read back as an expression.
-/

set_option autoImplicit false

namespace Formula.Decimal

/-- How the digits of a double are set out. -/
structure Layout where
  /-- The decimal exponents that are written positionally; `none` for all of them. -/
  positional : Option (Int × Int)
  /-- Integral values end in a point and a zero. -/
  keepsPoint : Bool
  /-- The least number of digits of a written exponent. -/
  exponentWidth : Nat
  deriving DecidableEq

/-- Plain numbers keep their point and are positional from `10 ^ -4` to below `10 ^ 16`. -/
def Layout.plain : Layout := ⟨some (-4, 16), true, 2⟩

/-- Fractional constants are positional whatever their size. -/
def Layout.constant : Layout := ⟨none, false, 2⟩

def zeros (n : Nat) : List Char := List.replicate n '0'

/-- Digits with the decimal point at a position, counted from before the first digit. -/
def placePoint (keepsPoint : Bool) (digits : List Char) (point : Int) : List Char :=
  match point with
  | .negSucc n => '0' :: '.' :: zeros (n + 1) ++ digits
  | .ofNat 0 => '0' :: '.' :: digits
  | .ofNat n =>
    if n < digits.length then digits.take n ++ '.' :: digits.drop n
    else digits ++ zeros (n - digits.length) ++ (if keepsPoint then ['.', '0'] else [])

/-- A sign, and at least `width` digits. -/
def exponentChars (width : Nat) (e : Int) : List Char :=
  let digits := digitsOf e.natAbs
  (if e < 0 then '-' else '+') :: zeros (width - digits.length) ++ digits

/-- One digit, the point if more follow, the other digits, and the exponent. -/
def scientificChars (width : Nat) (digits : List Char) (e : Int) : List Char :=
  digits.take 1 ++ (if digits.length > 1 then '.' :: digits.drop 1 else []) ++
    'e' :: exponentChars width e

def Layout.write (layout : Layout) (digits : List Char) (point : Int) : List Char :=
  let isPositional := match layout.positional with
    | none => true
    | some (first, last) => first ≤ point - 1 && point - 1 < last
  if isPositional then placePoint layout.keepsPoint digits point
  else scientificChars layout.exponentWidth digits (point - 1)

/-- The size of a binary fraction in its fewest digits. -/
def Layout.writeSize (layout : Layout) (b : Binary) : List Char :=
  if b.significand = 0 then layout.write ['0'] 1
  else
    let d := b.shortest
    let digits := digitsOf d.coefficient
    layout.write digits ((digits.length : Int) + d.exponent)

def withSign (negative : Bool) (cs : List Char) : List Char :=
  if negative then '-' :: cs else cs

def Layout.chars (layout : Layout) (x : Float) : List Char :=
  match decode x with
  | .nan => ['n', 'a', 'n']
  | .infinite negative => withSign negative ['i', 'n', 'f']
  | .finite b => withSign b.negative (layout.writeSize b)

def plainText (x : Float) : String :=
  String.ofList (Layout.plain.chars x)

def integerChars (n : Int) : List Char :=
  withSign (n < 0) (digitsOf n.natAbs)

/-- A double as a constant of an expression: an integral value in all its digits, without the
sign of a negative zero, any other in its fewest digits. -/
def constantChars (x : Float) : List Char :=
  match integer? x with
  | some n => integerChars n
  | none => Layout.constant.chars x

def constantText (x : Float) : String :=
  String.ofList (constantChars x)

end Formula.Decimal
