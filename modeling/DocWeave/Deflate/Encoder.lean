/-
Data in one block without repetitions: each byte has its word in the code that holds when a
block gives none.
-/
import DocWeave.Deflate.Block

namespace DocWeave.Deflate

/-- The number that bits stand for, the lowest first. -/
def valueOf (bits : List Bool) : Nat :=
  bits.foldr (fun bit n => bit.toNat + 2 * n) 0

/-- Bits as bytes; `begun` are those of the byte that has begun.  The last byte is filled up
with zeros. -/
def packBits (begun : List Bool) : List Bool → List UInt8
  | [] => if begun.isEmpty then [] else [UInt8.ofNat (valueOf begun)]
  | bit :: rest =>
      if begun.length < 7 then packBits (begun ++ [bit]) rest
      else UInt8.ofNat (valueOf (begun ++ [bit])) :: packBits [] rest

def fixedWord (s : Nat) : List Bool :=
  if s < 144 then Code.wordOf 8 (48 + s)
  else if s < endOfBlock then Code.wordOf 9 (256 + s)
  else Code.wordOf 7 (s - endOfBlock)

def fixedBlock (content : List UInt8) : List Bool :=
  true :: true :: false :: (content.flatMap (fun b => fixedWord b.toNat) ++ fixedWord endOfBlock)

def deflate (content : List UInt8) : List UInt8 :=
  packBits [] (fixedBlock content)

example : deflate [0x31] = [0x33, 0x04, 0x00] := by decide

end DocWeave.Deflate
