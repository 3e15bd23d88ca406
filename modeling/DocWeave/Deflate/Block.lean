/-
Compressed data: a row of blocks, each of which holds bytes as they are, or symbols
that stand for bytes and for repetitions of what came before.
-/
import DocWeave.Deflate.Code

namespace DocWeave.Deflate

abbrev Output := Array UInt8

/-- Repeats bytes that stand `distance` bytes before the end, one after the other, so
that a repetition can repeat itself. -/
def repeatBytes (distance : Nat) : Nat → Output → Output
  | 0, out => out
  | count + 1, out =>
      repeatBytes distance count (out.push (out.getD (out.size - distance) 0))

/-- A range of numbers: its least one, and how many bits tell which one is meant. -/
structure Span where
  least : Nat
  bits : Nat
deriving Repr, DecidableEq

/-- The lengths that a symbol above the bytes stands for. -/
def lengthSpan? (s : Nat) : Option Span :=
  if s < 257 then none
  else if s < 265 then some ⟨s - 254, 0⟩
  else if s < 285 then
    let bits := (s - 261) / 4
    some ⟨3 + (4 + (s - 265) % 4) * Nat.pow 2 bits, bits⟩
  else if s = 285 then some ⟨258, 0⟩
  else none

def distanceSpan? (s : Nat) : Option Span :=
  if s < 4 then some ⟨s + 1, 0⟩
  else if s < 30 then
    let bits := s / 2 - 1
    some ⟨1 + (2 + s % 2) * Nat.pow 2 bits, bits⟩
  else none

def numberIn (span : Option Span) (bits : List Bool) : Except Fault (Nat × Rest bits) :=
  match span with
  | none => .error .corrupt
  | some span => (number span.bits bits).map fun r => (span.least + r.1, r.2)

def endOfBlock : Nat := 256

/-- Reads the symbols of a block, up to and including the one that ends it.  The bits
are part of others, of which a rest is handed back. -/
def symbols (literals distances : Code) (whole : List Bool) (out : Output) (bits : List Bool)
    (h : bits.length ≤ whole.length) : Except Fault (Output × Rest whole) := do
  let (s, ⟨rest, hlt⟩) ← literals.read bits
  have hle := length_le_of_lt hlt
  have hrest := length_le_trans hle h
  if s < endOfBlock then
    symbols literals distances whole (out.push (UInt8.ofNat s)) rest hrest
  else if s = endOfBlock then
    return (out, ⟨rest, hrest⟩)
  else
    let (length, ⟨rest₁, h₁⟩) ← numberIn (lengthSpan? s) rest
    have hlt := length_lt_of_le_of_lt h₁ hlt
    let (d, ⟨rest₂, h₂⟩) ← distances.read rest₁
    have hlt := length_lt_trans h₂ hlt
    let (distance, ⟨rest₃, h₃⟩) ← numberIn (distanceSpan? d) rest₂
    have hlt := length_lt_of_le_of_lt h₃ hlt
    have hle := length_le_of_lt hlt
    have hrest := length_le_trans hle h
    if out.size < distance then throw .corrupt
    symbols literals distances whole (repeatBytes distance length out) rest₃ hrest
termination_by bits.length

def plainBytes : Nat → Output → (bits : List Bool) → Except Fault (Output × Rest bits)
  | 0, out, bits => .ok (out, ⟨bits, length_le_self bits⟩)
  | count + 1, out, bits => do
      let (b, ⟨rest, h⟩) ← number 8 bits
      let (out, final) ← plainBytes count (out.push (UInt8.ofNat b)) rest
      return (out, final.within h)

/-- Reads a block of bytes as they are: from the next byte on, their count, its
complement, and the bytes. -/
def plainBlock (out : Output) (bits : List Bool) : Except Fault (Output × Rest bits) := do
  let ⟨rest, h⟩ := align bits
  let (count, ⟨rest₁, h₁⟩) ← number 16 rest
  let (complement, ⟨rest₂, h₂⟩) ← number 16 rest₁
  if count + complement ≠ 0xFFFF then throw .corrupt
  let (out, final) ← plainBytes count out rest₂
  return (out, ((final.within h₂).within h₁).within h)

/-- The lengths of the words for bytes and lengths when a block does not give any. -/
def fixedLiterals : List Nat :=
  List.replicate 144 8 ++ List.replicate 112 9 ++ List.replicate 24 7 ++ List.replicate 8 8

def fixedDistances : List Nat := List.replicate 32 5

def shortLengths : Nat → (bits : List Bool) → Except Fault (List Nat × Rest bits)
  | 0, bits => .ok ([], ⟨bits, length_le_self bits⟩)
  | count + 1, bits => do
      let (length, ⟨rest, h⟩) ← number 3 bits
      let (lengths, final) ← shortLengths count rest
      return (length :: lengths, final.within h)

/-- The order in which the lengths of the words for lengths are given. -/
def shortOrder : List Nat :=
  [16, 17, 18, 0, 8, 7, 9, 6, 10, 5, 11, 4, 12, 3, 13, 2, 14, 1, 15]

def sortShort (given : List Nat) : List Nat :=
  (List.range shortOrder.length).map fun s => ((shortOrder.zip given).lookup s).getD 0

/-- Reads lengths of words until there are `total`.  Symbols up to 15 are lengths,
16 repeats the last length, and 17 and 18 stand for zeros. -/
def lengths (code : Code) (total : Nat) (found : Array Nat) (bits : List Bool) :
    Except Fault (Array Nat × Rest bits) :=
  if total ≤ found.size then
    if total = found.size then .ok (found, ⟨bits, length_le_self bits⟩) else .error .corrupt
  else do
    let (s, ⟨rest, h⟩) ← code.read bits
    let (added, ⟨rest₁, h₁⟩) ← show Except Fault (List Nat × Rest rest) from
      if s < 16 then .ok ([s], ⟨rest, length_le_self rest⟩)
      else if s = 16 then
        match found.back? with
        | none => .error .corrupt
        | some last => (number 2 rest).map fun r => (List.replicate (3 + r.1) last, r.2)
      else if s = 17 then
        (number 3 rest).map fun r => (List.replicate (3 + r.1) 0, r.2)
      else (number 7 rest).map fun r => (List.replicate (11 + r.1) 0, r.2)
    have hlt := length_lt_of_le_of_lt h₁ h
    let (all, final) ← lengths code total (found ++ added) rest₁
    return (all, final.within (length_le_of_lt hlt))
termination_by bits.length

/-- Reads the codes of a block that gives its own: first the code for the lengths of
words, then these lengths. -/
def ownCodes (bits : List Bool) : Except Fault ((Code × Code) × Rest bits) := do
  let (literals, ⟨rest, h⟩) ← number 5 bits
  let (distances, ⟨rest₁, h₁⟩) ← number 5 rest
  let (short, ⟨rest₂, h₂⟩) ← number 4 rest₁
  let literalCount := literals + 257
  let distanceCount := distances + 1
  if 286 < literalCount ∨ 30 < distanceCount then throw .corrupt
  let (given, ⟨rest₃, h₃⟩) ← shortLengths (short + 4) rest₂
  let shortCode := sortShort given
  if !Code.isComplete shortCode then throw .corrupt
  let (all, final) ←
    lengths (Code.ofLengths shortCode) (literalCount + distanceCount) #[] rest₃
  let literalCode ← Code.ofLengths? (all.toList.take literalCount)
  let distanceCode ← Code.ofLengths? (all.toList.drop literalCount)
  return ((literalCode, distanceCode), (((final.within h₃).within h₂).within h₁).within h)

def block (kind : Nat) (out : Output) (bits : List Bool) :
    Except Fault (Output × Rest bits) := do
  match kind with
  | 0 => plainBlock out bits
  | 1 =>
      symbols (Code.ofLengths fixedLiterals) (Code.ofLengths fixedDistances) bits out bits
        (length_le_self bits)
  | 2 =>
      let ((literals, distances), ⟨rest, h⟩) ← ownCodes bits
      symbols literals distances bits out rest h
  | _ => throw .corrupt

def blocks (out : Output) (bits : List Bool) : Except Fault (Output × List Bool) :=
  match bits with
  | [] => .error .cutShort
  | final :: rest => do
      let (kind, ⟨rest₁, _⟩) ← number 2 rest
      let (out, ⟨rest₂, _⟩) ← block kind out rest₁
      if final then return (out, rest₂) else blocks out rest₂
termination_by bits.length

/-- The data that compressed bytes stand for, and the bytes behind them. -/
def inflate (bytes : List UInt8) : Except Fault (List UInt8 × List UInt8) := do
  let (out, rest) ← blocks #[] (bitsOfBytes bytes)
  return (out.toList, bytes.drop (bytes.length - rest.length / 8))

end DocWeave.Deflate
