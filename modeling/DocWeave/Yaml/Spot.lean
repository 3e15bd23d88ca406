/-
A place in a text whose columns count: what is ahead, how far to the right it stands,
and whether a key or an entry may start there.
-/
import DocWeave.Text.Repeat

namespace DocWeave.Yaml

/-! ### Line ends -/

def isBreak (c : Char) : Bool :=
  c = '\n' || c = '\r' || c = '\x85' || c = '\u2028' || c = '\u2029'

/-- A text in which a line feed stands for every line end but the separators of lines
and of paragraphs, which stay what they are. -/
def unifyBreaks : List Char → List Char
  | [] => []
  | '\r' :: '\n' :: rest => '\n' :: unifyBreaks rest
  | c :: rest => (if c = '\r' ∨ c = '\x85' then '\n' else c) :: unifyBreaks rest

/-! ### Places -/

structure Spot where
  text : List Char
  column : Nat
  /-- Keys and entries start at the beginning of a line, or behind another of their
  marks. -/
  opens : Bool

namespace Spot

def size (s : Spot) : Nat :=
  s.text.length

/-- Places behind another place. -/
abbrev After (s : Spot) := { t : Spot // t.size < s.size }

/-- A place and those behind it. -/
abbrev From (s : Spot) := { t : Spot // t.size ≤ s.size }

theorem size_le_of_lt {s t : Spot} (h : t.size < s.size) : t.size ≤ s.size :=
  Nat.le_of_lt h

theorem size_lt_trans {s t u : Spot} (h : u.size < t.size) (h' : t.size < s.size) :
    u.size < s.size :=
  Nat.lt_trans h h'

theorem size_lt_of_le_of_lt {s t u : Spot} (h : u.size ≤ t.size) (h' : t.size < s.size) :
    u.size < s.size :=
  Nat.lt_of_le_of_lt h h'

theorem size_lt_of_lt_of_le {s t u : Spot} (h : u.size < t.size) (h' : t.size ≤ s.size) :
    u.size < s.size :=
  Nat.lt_of_lt_of_le h h'

def After.within {s t : Spot} (u : After t) (h : t.size ≤ s.size) : After s :=
  ⟨u.1, size_lt_of_lt_of_le u.2 h⟩

def After.toFrom {s : Spot} (t : After s) : From s :=
  ⟨t.1, size_le_of_lt t.2⟩

def From.within {s t : Spot} (u : From t) (h : t.size ≤ s.size) : From s :=
  ⟨u.1, Nat.le_trans u.2 h⟩

def From.behind {s t : Spot} (u : From t) (h : t.size < s.size) : After s :=
  ⟨u.1, size_lt_of_le_of_lt u.2 h⟩

/-- The place so many characters on, on the same line. -/
def ahead (s : Spot) (count : Nat) (opens : Bool) : Spot :=
  ⟨s.text.drop count, s.column + count, opens⟩

theorem size_ahead_le (s : Spot) (count : Nat) (opens : Bool) :
    (s.ahead count opens).size ≤ s.size := by
  simp [size, ahead]

theorem size_ahead_lt {s : Spot} {count : Nat} {opens : Bool} (hs : s.text ≠ [])
    (hcount : 0 < count) : (s.ahead count opens).size < s.size := by
  have := List.length_pos_iff.2 hs
  simp only [size, ahead, List.length_drop]
  omega

def newLine (text : List Char) : Spot :=
  ⟨text, 0, true⟩

def next (s : Spot) (opens : Bool) : Option (Char × After s) :=
  match h : s.text with
  | [] => none
  | c :: _ => some (c, ⟨s.ahead 1 opens, size_ahead_lt (by simp [h]) (by simp)⟩)

end Spot

def isGap (c : Char) : Bool :=
  c = ' ' || c = '\t'

/-- Whether a blank, a line end or nothing is ahead. -/
def gapAhead : List Char → Bool
  | [] => true
  | c :: _ => isGap c || isBreak c

/-- Whether a mark is ahead that stands for itself only in front of a blank. -/
def markAhead (mark : Char) : List Char → Bool
  | [] => false
  | c :: rest => c = mark && gapAhead rest

/-- The place of the next word: behind blanks, comments and line ends.  In front of
keys and entries a tab is no blank.  Brackets make line ends blanks like others. -/
def skip (bracketed : Bool) (text : List Char) (column : Nat) (opens : Bool) : Spot :=
  match text with
  | [] => ⟨[], column, opens⟩
  | c :: rest =>
      if c = ' ' ∨ (c = '\t' ∧ (bracketed ∨ !opens)) then
        skip bracketed rest (column + 1) opens
      else if c = '#' then
        skip bracketed (rest.dropWhile (!isBreak ·)) column opens
      else if isBreak c then skip bracketed rest 0 (if bracketed then opens else true)
      else ⟨c :: rest, column, opens⟩
termination_by text.length
decreasing_by
  all_goals simp only [List.length_cons]
  · omega
  · exact Nat.lt_succ_of_le (length_dropWhile_le _ rest)
  · omega

theorem size_skip_le (bracketed : Bool) (text : List Char) (column : Nat) (opens : Bool) :
    (skip bracketed text column opens).size ≤ text.length := by
  fun_induction skip bracketed text column opens with
  | case1 => simp [Spot.size]
  | case2 column opens c rest _ ih => exact Nat.le_succ_of_le ih
  | case3 column opens rest _ ih =>
      exact Nat.le_succ_of_le (Nat.le_trans ih (length_dropWhile_le _ rest))
  | case4 column opens c rest _ _ _ ih => exact Nat.le_succ_of_le ih
  | case5 => simp [Spot.size]

def Spot.word (bracketed : Bool) (s : Spot) : From s :=
  ⟨skip bracketed s.text s.column s.opens, size_skip_le bracketed s.text s.column s.opens⟩

/-- Whether the mark of a document is ahead: three of a sign at the start of a
line. -/
def Spot.atMarker (s : Spot) : Bool :=
  s.column = 0 &&
    (s.text.take 3 = "---".toList || s.text.take 3 = "...".toList) && gapAhead (s.text.drop 3)

/-- Whether a block ends here whose words stand in `least` or further to the right. -/
def Spot.ends (s : Spot) (least : Nat) : Bool :=
  s.text.isEmpty || s.column < least || s.atMarker

end DocWeave.Yaml
