/-
Bytes as bits, the lowest bit of a byte first, and numbers in a fixed count of bits.
-/
import DocWeave.Text.Remainder

namespace DocWeave.Deflate

inductive Fault where
  /-- The data ends too early. -/
  | cutShort
  /-- The data is not the outcome of any compression. -/
  | corrupt
deriving Repr, DecidableEq

/-- The bits of a byte, lowest first. -/
def bitsOfByte (b : UInt8) : List Bool :=
  (List.range 8).map b.toNat.testBit

def bitsOfBytes (bytes : List UInt8) : List Bool :=
  bytes.flatMap bitsOfByte

/-- Reads a number of so many bits, lowest first. -/
def number : Nat → (bits : List Bool) → Except Fault (Nat × Rest bits)
  | 0, bits => .ok (0, ⟨bits, length_le_self bits⟩)
  | _ + 1, [] => .error .cutShort
  | count + 1, bit :: bits =>
      (number count bits).map fun r =>
        (bit.toNat + 2 * r.1, r.2.within (length_le_cons bit bits))

/-- The bits from the next byte on. -/
def align (bits : List Bool) : Rest bits :=
  ⟨bits.drop (bits.length % 8), length_drop_le (bits.length % 8) bits⟩

example : bitsOfByte 0x4B = [true, true, false, true, false, false, true, false] := by decide

end DocWeave.Deflate
