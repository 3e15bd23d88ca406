/-
Prefix codes.  A code is told by the length of the word of each symbol alone: shorter
words come first, words of one length follow the order of their symbols, and each is
the next free one.
-/
import DocWeave.Deflate.Bits

namespace DocWeave.Deflate

/-- The words of a code, as the ways through a tree. -/
inductive Code where
  | unused
  | symbol (s : Nat)
  | branch (zero one : Code)
deriving Repr, DecidableEq

namespace Code

def halves : Code → Code × Code
  | branch zero one => (zero, one)
  | _ => (unused, unused)

def insert (s : Nat) : List Bool → Code → Code
  | [], _ => symbol s
  | bit :: word, code =>
      let (zero, one) := code.halves
      if bit then branch zero (insert s word one) else branch (insert s word zero) one

/-- The bits of a word, the highest first. -/
def wordOf (length value : Nat) : List Bool :=
  (List.range length).reverse.map value.testBit

/-- The words of symbols that are sorted by length, given the next free word of the
length before. -/
def assign (free length : Nat) : List (Nat × Nat) → List (Nat × List Bool)
  | [] => []
  | (own, s) :: rest =>
      let value := free * Nat.pow 2 (own - length)
      (s, wordOf own value) :: assign (value + 1) own rest

def longest : Nat := 15

/-- The symbols that have a word, each behind its length, in the order of the words. -/
def ranked (lengths : List Nat) : List (Nat × Nat) :=
  (List.range longest).flatMap fun length =>
    lengths.zipIdx.filter fun entry => entry.1 = length + 1

/-- The code whose words have the given lengths, symbol by symbol; a length of zero
means that a symbol has no word. -/
def ofLengths (lengths : List Nat) : Code :=
  (assign 0 0 (ranked lengths)).foldl (fun code entry => code.insert entry.1 entry.2) unused

/-- Whether words of these lengths use up all there are. -/
def isComplete (lengths : List Nat) : Bool :=
  (ranked lengths).foldr (fun entry total => Nat.pow 2 (longest - entry.1) + total) 0 =
    Nat.pow 2 longest

/-- Whether words of these lengths make a code that is either complete or has one
word at most. -/
def isUsable (lengths : List Nat) : Bool :=
  isComplete lengths || (ranked lengths).length ≤ 1

def ofLengths? (lengths : List Nat) : Except Fault Code :=
  if isUsable lengths then .ok (ofLengths lengths) else .error .corrupt

def follow : Code → (bits : List Bool) → Except Fault (Nat × Rest bits)
  | unused, _ => .error .corrupt
  | symbol s, bits => .ok (s, ⟨bits, length_le_self bits⟩)
  | branch .., [] => .error .cutShort
  | branch zero one, bit :: bits =>
      (if bit then one.follow bits else zero.follow bits).map fun r =>
        (r.1, r.2.within (length_le_cons bit bits))

/-- Reads a symbol, which takes one bit at least. -/
def read (code : Code) (bits : List Bool) : Except Fault (Nat × Remainder bits) :=
  match bits with
  | [] => .error .cutShort
  | bit :: rest =>
      let (zero, one) := code.halves
      ((if bit then one else zero).follow rest).map fun r =>
        (r.1, r.2.behind (length_lt_cons bit rest))

example : assign 0 0 (ranked [2, 1, 3, 3]) =
    [(1, [false]), (0, [true, false]), (2, [true, true, false]), (3, [true, true, true])] := by
  decide

example : isUsable [1, 1] = true ∧ isUsable [0, 5] = true ∧ isUsable [1, 2] = false := by
  decide

end Code

end DocWeave.Deflate
