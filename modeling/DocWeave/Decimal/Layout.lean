/-
How a double is laid out as text.  The digits are always the shortest ones; what
differs from one output to the next is where positional notation ends and how
an exponent, a whole number and the values without digits are spelled.
-/
import DocWeave.Decimal.Shortest

namespace DocWeave.Decimal

structure Layout where
  tie : Tie
  /-- Whether a leading digit at this exponent is written positionally. -/
  positional : Int → Bool
  /-- What follows a whole number that is written positionally. -/
  wholeMark : String
  /-- What stands before an exponent that is not negative. -/
  plus : String
  nan : String
  infinity : String

/-- Digits in positional notation, with the mark for whole numbers. -/
def Scientific.positional (s : Scientific) (wholeMark : String) : String :=
  let digits := Nat.toDigits 10 s.coefficient
  if s.exponent < 0 then
    "0." ++ String.ofList (List.replicate (-s.exponent - 1).toNat '0' ++ digits)
  else
    let whole := s.exponent.toNat + 1
    if digits.length ≤ whole then
      String.ofList (digits ++ List.replicate (whole - digits.length) '0') ++ wholeMark
    else
      String.ofList (digits.take whole ++ '.' :: digits.drop whole)

/-- One digit, the point and the rest if there is a rest, then the exponent. -/
def Scientific.exponential (s : Scientific) (plus : String) : String :=
  let mantissa := match Nat.toDigits 10 s.coefficient with
    | first :: second :: rest => String.ofList (first :: '.' :: second :: rest)
    | digits => String.ofList digits
  let exponent :=
    if s.exponent < 0 then "-" ++ Nat.repr s.exponent.natAbs
    else plus ++ Nat.repr s.exponent.natAbs
  mantissa ++ "e" ++ exponent

def Layout.text (layout : Layout) (x : Float) : String :=
  if x.isNaN then layout.nan
  else
    let sign := if isNegative x then "-" else ""
    if x.isInf then sign ++ layout.infinity
    else
      let digits := shortest layout.tie x
      if layout.positional digits.exponent then
        sign ++ digits.positional layout.wholeMark
      else
        sign ++ digits.exponential layout.plus

/-- Digits only, however many: no exponent and no mark on a whole number. -/
def Layout.plain : Layout :=
  { tie := .up, positional := fun _ => true, wholeMark := "", plus := ""
    nan := "NaN", infinity := "inf" }

/-- Positional from `1e-4` up to `1e16`, and a whole number still shows a
fraction. -/
def Layout.marked : Layout :=
  { Layout.plain with
    positional := fun e => -4 ≤ e && e ≤ 15, wholeMark := ".0" }

end DocWeave.Decimal
