/-
Decimal literals as they stand in text: an optional sign, digits with at most one
point among or around them, and an optional exponent.  Reading a literal keeps its
exact value; turning it into a double rounds once.
-/

namespace DocWeave.Decimal

def natOfDigits (digits : List Char) : Nat :=
  Nat.ofDigitChars 10 digits 0

def takeSign : List Char → Bool × List Char
  | '-' :: rest => (true, rest)
  | '+' :: rest => (false, rest)
  | rest => (false, rest)

/-- A whole number: an optional sign and at least one digit. -/
def readInteger? (text : List Char) : Option Int :=
  let (negative, digits) := takeSign text
  if digits.isEmpty || !digits.all Char.isDigit then none
  else
    let magnitude : Int := natOfDigits digits
    some (if negative then -magnitude else magnitude)

/-- The exact value `± significand * 10 ^ exponent`. -/
structure Literal where
  negative : Bool
  significand : Nat
  exponent : Int
deriving Repr, DecidableEq

/-- The exponent at the end of a literal: nothing, or a mark and a whole number. -/
def readExponent? : List Char → Option Int
  | [] => some 0
  | mark :: rest => if mark = 'e' || mark = 'E' then readInteger? rest else none

def Literal.read? (text : List Char) : Option Literal :=
  let (negative, body) := takeSign text
  let whole := body.takeWhile Char.isDigit
  let (fraction, rest) := match body.dropWhile Char.isDigit with
    | '.' :: rest => (rest.takeWhile Char.isDigit, rest.dropWhile Char.isDigit)
    | rest => ([], rest)
  if whole.isEmpty && fraction.isEmpty then none
  else (readExponent? rest).map fun exponent =>
    { negative
      significand := natOfDigits (whole ++ fraction)
      exponent := exponent - fraction.length }

/-- The nearest double.  A magnitude beyond every double is infinite and one far
below the least is zero, which is decided without forming the power of ten. -/
def Literal.toFloat (l : Literal) : Float :=
  let size := ((Nat.toDigits 10 l.significand).length : Int) + l.exponent
  let magnitude :=
    if l.significand = 0 || size < -400 then 0.0
    else if 400 < size then 1.0 / 0.0
    else Float.ofScientific l.significand (l.exponent < 0) l.exponent.natAbs
  if l.negative then -magnitude else magnitude

end DocWeave.Decimal
