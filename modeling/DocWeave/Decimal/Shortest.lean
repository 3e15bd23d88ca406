/-
The fewest digits that read back as the same double.  For one, two, ... seventeen
digits the two neighbours of the value on that decimal grid are tried; the first
grid with a hit wins, and of two hits the nearer one.
-/
import DocWeave.Decimal.Dyadic

namespace DocWeave.Decimal

/-- A magnitude in scientific form: `coefficient`, read with a point after its
first digit, times ten to the `exponent`. -/
structure Scientific where
  coefficient : Nat
  exponent : Int
deriving Repr, DecidableEq

/-- Which neighbour wins when both are equally near. -/
inductive Tie where
  | even
  | up
deriving Repr, DecidableEq

/-- The exponent of the leading digit of `numerator / denominator`, which is not
zero. -/
def leadingExponent (numerator denominator : Nat) : Int :=
  if denominator ≤ numerator then
    ((Nat.toDigits 10 (numerator / denominator)).length : Int) - 1
  else
    -((Nat.toDigits 10 ((denominator - 1) / numerator)).length : Int)

/-- The neighbour of the value on the grid of whole units that reads back, the
nearer one when both do. -/
def Interval.nearestUnit? (i : Interval) (tie : Tie) : Option Nat :=
  let below := i.value / i.denominator
  let above := below + 1
  match i.holds below, i.holds above with
  | false, false => none
  | true, false => some below
  | false, true => some above
  | true, true =>
      let twice := 2 * (i.value % i.denominator)
      if twice < i.denominator then some below
      else if i.denominator < twice then some above
      else match tie with
        | .even => some (if below % 2 = 0 then below else above)
        | .up => some above

/-- Drops trailing zeros, counting them into nothing: the place of the leading
digit stays.  The fuel bounds the digits looked at. -/
def dropTrailingZeros : Nat → Nat → Nat
  | 0, n => n
  | fuel + 1, n => if n % 10 = 0 && n != 0 then dropTrailingZeros fuel (n / 10) else n

/-- The shortest digits of a double that is neither NaN nor infinite. -/
def shortest (tie : Tie) (x : Float) : Scientific :=
  let interval := (Dyadic.ofFloat x).interval
  if interval.value = 0 then ⟨0, 0⟩
  else
    let lead := leadingExponent interval.value interval.denominator
    let found := (List.range 17).findSome? fun (more : Nat) =>
      ((interval.scaleBy (lead - more)).nearestUnit? tie).map fun units => (units, more)
    match found with
    | none => ⟨0, 0⟩
    | some (units, more) =>
        -- a neighbour above may be the next power of ten, one digit longer
        let carried : Int := if Nat.pow 10 (more + 1) ≤ units then 1 else 0
        ⟨dropTrailingZeros 18 units, lead + carried⟩

end DocWeave.Decimal
