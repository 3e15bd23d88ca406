/-
Scalars that are blocks of lines, further to the right than what they belong to: as
they are, or with lines joined.
-/
import DocWeave.Yaml.Fold

namespace DocWeave.Yaml

/-- What becomes of the line ends behind the last line. -/
inductive Chomp where
  | clip
  | strip
  | keep
deriving DecidableEq

structure LinesHeader where
  folded : Bool
  chomp : Chomp := .clip
  /-- How much further to the right the lines stand, if that is given. -/
  increment : Option Nat := none

def readChomp (header : LinesHeader) : List Char → LinesHeader × List Char
  | '+' :: rest => ({ header with chomp := .keep }, rest)
  | '-' :: rest => ({ header with chomp := .strip }, rest)
  | text => (header, text)

/-- Takes in a digit for the distance to the right, if one is there.  A zero is not
allowed. -/
def readIncrement? (header : LinesHeader) (text : List Char) :
    Option (LinesHeader × List Char) :=
  match text with
  | c :: rest =>
      if c = '0' then none
      else if c.isDigit then
        some ({ header with increment := some (c.toNat - '0'.toNat) }, rest)
      else some (header, text)
  | [] => some (header, text)

/-- What stands behind the mark, in either order, and the lines below. -/
def readLinesHeader? (folded : Bool) (text : List Char) : Option (LinesHeader × List Char) := do
  let (header, rest) := readChomp ⟨folded, .clip, none⟩ text
  let signed := header.chomp ≠ .clip
  let (header, rest) ← readIncrement? header rest
  let (header, rest) := if signed then (header, rest) else readChomp header rest
  let rest := rest.dropWhile isGap
  let rest := if rest.head? = some '#' then rest.dropWhile (!isBreak ·) else rest
  match rest with
  | [] => return (header, [])
  | c :: rest => if isBreak c then return (header, rest) else none

/-- Empty lines and the blanks in front of a line, up to a column: the ends of the empty
lines, and the place behind the blanks. -/
def lead (indent column : Nat) (text : List Char) : Option (List Char × Spot) :=
  match text with
  | [] => some ([], ⟨[], column, true⟩)
  | c :: rest =>
      if c = ' ' ∧ column < indent then lead indent (column + 1) rest
      else if c = '\t' ∧ column < indent then none
      else if isBreak c then (lead indent 0 rest).map fun r => (c :: r.1, r.2)
      else some ([], ⟨c :: rest, column, true⟩)

theorem size_lead_le {indent column : Nat} {text found : List Char} {t : Spot}
    (h : lead indent column text = some (found, t)) : t.size ≤ text.length := by
  induction text generalizing column found with
  | nil =>
      simp only [lead, Option.some.injEq, Prod.mk.injEq] at h
      simp [← h.2, Spot.size]
  | cons c rest ih =>
      simp only [lead] at h
      split at h
      · exact Nat.le_succ_of_le (ih h)
      · split at h
        · simp at h
        · split at h
          · simp only [Option.map_eq_some_iff, Prod.mk.injEq] at h
            obtain ⟨⟨inner, u⟩, hfound, rfl, rfl⟩ := h
            exact Nat.le_succ_of_le (ih hfound)
          · simp only [Option.some.injEq, Prod.mk.injEq] at h
            simp [← h.2, Spot.size]

/-- The column of the first line that is not empty, or that of a longer line of blanks
in front of it. -/
def firstColumn? (column widest : Nat) (text : List Char) : Option Nat :=
  match text with
  | [] => some (max column widest)
  | c :: rest =>
      if c = ' ' then firstColumn? (column + 1) widest rest
      else if c = '\t' then none
      else if isBreak c then firstColumn? 0 (max column widest) rest
      else some (max column widest)

/-- What stands in front of a line: the end of the line before, if there is one, which
folding makes a blank between two lines that do not start with blanks, and the empty
lines. -/
def lineJoint (folded : Bool) (ended : Option Char) (blankBefore blankAfter : Bool)
    (empty : List Char) : List Char :=
  let ending :=
    if folded && ended = some '\n' && !blankBefore && !blankAfter then
      (if empty.isEmpty then [' '] else [])
    else ended.toList
  ending ++ empty

def lastBreaks (chomp : Chomp) (ended : Option Char) (empty : List Char) : List Char :=
  match chomp with
  | .strip => []
  | .clip => ended.toList
  | .keep => ended.toList ++ empty

/-- The lines of a block in the column `indent`, and the place behind them.  `ended` is
the end of the line before, `blank` tells that this line starts with a blank, and `empty`
are the ends of the empty lines behind it. -/
def readLines (header : LinesHeader) (indent : Nat) (ended : Option Char) (blank : Bool)
    (empty : List Char) (s : Spot) : Option (List Char × Spot) :=
  if s.column = indent ∧ s.text ≠ [] then
    let line := s.text.takeWhile (!isBreak ·)
    let blankAfter := line.head?.any isGap
    let start := lineJoint header.folded ended blank blankAfter empty ++ line
    match _hrest : s.text.dropWhile (!isBreak ·) with
    | [] => some (start ++ lastBreaks header.chomp none [], ⟨[], 0, true⟩)
    | c :: rest =>
        match _hlead : lead indent 0 rest with
        | none => none
        | some (empty, t) =>
            (readLines header indent (some c) blankAfter empty t).map fun r =>
              (start ++ r.1, r.2)
  else some (lastBreaks header.chomp ended empty, s)
termination_by s.size
decreasing_by
  have h₁ := size_lead_le _hlead
  have h₂ := length_dropWhile_le (!isBreak ·) s.text
  rw [_hrest, List.length_cons] at h₂
  simp only [Spot.size] at *
  omega

/-- A scalar that is a block of lines, behind its mark.  Its lines stand in `least` or
further to the right. -/
def linesScalar (folded : Bool) (least : Nat) (s : Spot) : Option (Scalar × Spot) := do
  let (header, rest) ← readLinesHeader? folded s.text
  let indent ← match header.increment with
    | some more => pure (least - 1 + more)
    | none => (firstColumn? 0 0 rest).map fun column => max column (max least 1)
  let (empty, t) ← lead indent 0 rest
  let (content, final) ← readLines header indent none false empty t
  return (⟨content, false⟩, final)

end DocWeave.Yaml
