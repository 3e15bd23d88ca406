/-
The numbers of a document: whole numbers of 64 bits, and doubles.
-/
import DocWeave.Decimal.Layout
import DocWeave.Decimal.Literal

namespace DocWeave

inductive Number where
  | integer (n : Int64)
  | float (x : Float)

namespace Number

/-- A whole number if it fits in 64 bits. -/
def ofInt? (n : Int) : Option Number :=
  if Int64.minValue.toInt ≤ n ∧ n ≤ Int64.maxValue.toInt then
    some (.integer (Int64.ofInt n))
  else none

/-- A double if it is finite: infinities and NaN are not numbers of a document. -/
def ofFloat? (x : Float) : Option Number :=
  if x.isFinite then some (.float x) else none

def toFloat : Number → Float
  | integer n => Float.ofInt n.toInt
  | float x => x

/-- Whole numbers in decimal, doubles in as many places as they need. -/
def display : Number → String
  | integer n => toString n.toInt
  | float x => Decimal.Layout.plain.text x

/-- Reads scalar text as a number.  A whole number too large for 64 bits becomes a
double, and a literal too large for a double is no number. -/
def read? (text : List Char) : Option Number :=
  match (Decimal.readInteger? text).bind ofInt? with
  | some n => some n
  | none => (Decimal.Literal.read? text).bind fun literal => ofFloat? literal.toFloat

/-- Numbers are equal within their kind; the two zeros are equal. -/
def same : Number → Number → Bool
  | integer m, integer n => m == n
  | float x, float y => x == y
  | _, _ => false

end Number

end DocWeave
