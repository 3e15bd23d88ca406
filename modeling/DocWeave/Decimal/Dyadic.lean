/-
A finite double read off its bits: a whole number of steps of a power of two, and
the interval of reals that round to it.
-/

namespace DocWeave.Decimal

/-- The magnitude `mantissa * 2 ^ exponent` of a double. -/
structure Dyadic where
  mantissa : Nat
  exponent : Int
  /-- The neighbour below is only half a step away, as at a power of two. -/
  narrowBelow : Bool
deriving Repr, DecidableEq

/-- The magnitude of a finite double.  The fifty-two low bits are the fraction,
the next eleven the biased exponent, and only the lowest exponent has no implicit
leading bit. -/
def Dyadic.ofFloat (x : Float) : Dyadic :=
  let bits := x.toBits.toNat
  let fraction : Nat := bits % 0x10000000000000
  let biased : Nat := bits / 0x10000000000000 % 0x800
  if biased = 0 then ⟨fraction, -1074, false⟩
  else ⟨0x10000000000000 + fraction, (biased : Int) - 1075, fraction = 0 && 1 < biased⟩

/-- The sign bit, which zero and NaN carry too. -/
def isNegative (x : Float) : Bool :=
  0x8000000000000000 ≤ x.toBits.toNat

/-- The reals that round to a double, as numerators over one denominator. -/
structure Interval where
  low : Nat
  value : Nat
  high : Nat
  denominator : Nat
  /-- The ends round to the double as well. -/
  closed : Bool
deriving Repr, DecidableEq

/-- Half a step on either side, counted in quarter steps so that the narrow lower
half is whole.  The ends belong to an even mantissa. -/
def Dyadic.interval (d : Dyadic) : Interval :=
  let scale := Nat.pow 2 (d.exponent - 2).toNat
  { low := (4 * d.mantissa - if d.narrowBelow then 1 else 2) * scale
    value := 4 * d.mantissa * scale
    high := (4 * d.mantissa + 2) * scale
    denominator := Nat.pow 2 (2 - d.exponent).toNat
    closed := d.mantissa % 2 = 0 }

def Interval.scaleBy (i : Interval) (power : Int) : Interval :=
  let up := Nat.pow 10 (-power).toNat
  { low := i.low * up
    value := i.value * up
    high := i.high * up
    denominator := i.denominator * Nat.pow 10 power.toNat
    closed := i.closed }

def Interval.holds (i : Interval) (n : Nat) : Bool :=
  let point := n * i.denominator
  if i.closed then i.low ≤ point && point ≤ i.high
  else i.low < point && point < i.high

end DocWeave.Decimal
