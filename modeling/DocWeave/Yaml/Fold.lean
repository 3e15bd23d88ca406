/-
Scalars that flow over line ends: plain ones and quoted ones.  Blanks around a line
end do not count; a single line end stands for a blank, and of several the first one
does not count.
-/
import DocWeave.Text.Basic
import DocWeave.Yaml.Scalar
import DocWeave.Yaml.Spot
import DocWeave.Value.Basic

namespace DocWeave.Yaml

open Spot (After From)

structure Scalar where
  text : List Char
  isPlain : Bool

/-- The value of a scalar.  Whole numbers above 64 bits are not allowed. -/
def Scalar.value? (scalar : Scalar) : Option Value :=
  if scalar.isPlain then
    match Meaning.ofPlain scalar.text with
    | .null => some .null
    | .bool b => some (.bool b)
    | .whole n =>
        match Number.ofInt? n with
        | some number => some (.number number)
        | none =>
            if 0 ≤ n ∧ n < 0x10000000000000000 then some (.number (.float (Float.ofInt n)))
            else none
    | .real x => some (.number (.float x))
    | .text => some (.string (String.ofList scalar.text))
  else some (.string (String.ofList scalar.text))

/-- What stands between two words of a scalar, given the line ends there.  Line feeds are
folded; other line ends are not. -/
def joint (blanks breaks : List Char) : List Char :=
  match breaks with
  | [] => blanks
  | ['\n'] => [' ']
  | '\n' :: more => more
  | breaks => breaks

/-- Line ends and the blanks behind them: which line ends there are, and the place of the
next word.  To the left of the column `least` a tab is not allowed. -/
def breaks (least column : Nat) (text : List Char) : Option (List Char × Spot) :=
  match text with
  | [] => some ([], ⟨[], column, false⟩)
  | c :: rest =>
      if c = ' ' then breaks least (column + 1) rest
      else if c = '\t' then if column < least then none else breaks least (column + 1) rest
      else if isBreak c then (breaks least 0 rest).map fun r => (c :: r.1, r.2)
      else some ([], ⟨c :: rest, column, false⟩)

theorem size_breaks_le {least column : Nat} {text found : List Char} {t : Spot}
    (h : breaks least column text = some (found, t)) : t.size ≤ text.length := by
  induction text generalizing column found with
  | nil =>
      simp only [breaks, Option.some.injEq, Prod.mk.injEq] at h
      simp [← h.2, Spot.size]
  | cons c rest ih =>
      simp only [breaks] at h
      split at h
      · exact Nat.le_succ_of_le (ih h)
      · split at h
        · split at h
          · simp at h
          · exact Nat.le_succ_of_le (ih h)
        · split at h
          · simp only [Option.map_eq_some_iff, Prod.mk.injEq] at h
            obtain ⟨⟨inner, u⟩, hfound, rfl, rfl⟩ := h
            exact Nat.le_succ_of_le (ih hfound)
          · simp only [Option.some.injEq, Prod.mk.injEq] at h
            simp [← h.2, Spot.size]

def gap (least : Nat) (s : Spot) : Option ((List Char × List Char) × From s) :=
  let own := s.text.takeWhile isGap
  let rest := s.text.dropWhile isGap
  if rest.head?.any isBreak then
    match h : breaks least (s.column + own.length) rest with
    | none => none
    | some (found, t) =>
        some (([], found), ⟨t, Nat.le_trans (size_breaks_le h) (length_dropWhile_le isGap _)⟩)
  else some ((own, []), ⟨s.ahead own.length false, Spot.size_ahead_le ..⟩)

/-- Characters with a meaning of their own between brackets. -/
def bracketMarks : List Char := [',', '[', ']', '\x7b', '\x7d']

inductive WordEnd where
  | gap
  | stop
  | fault

def wordEnd? (bracketed : Bool) (text : List Char) : Option WordEnd :=
  match text with
  | [] => some .stop
  | c :: rest =>
      if isGap c || isBreak c then some .gap
      else if bracketed && c = ':' && rest.head?.any (fun d => d = '?' || bracketMarks.contains d)
      then some .fault
      else if (c = ':' && gapAhead rest) || (bracketed && bracketMarks.contains c) then
        some .stop
      else none

def goesOn (bracketed : Bool) (least : Nat) (breaks : List Char) (t : Spot) : Bool :=
  !(t.text.isEmpty || t.text.head? = some '#' || t.atMarker ||
    (!bracketed && !breaks.isEmpty && t.column < least) ||
    match wordEnd? bracketed t.text with
    | some .stop => true
    | _ => false)

/-- The next character of a plain scalar with what stands in front of it, unless the
scalar ends here.  Between brackets more characters end it; elsewhere its words have to
stand in the column `least` or further to the right. -/
def plainPart (bracketed : Bool) (least : Nat) (s : Spot) :
    Option (Option (List Char × After s)) := do
  match wordEnd? bracketed s.text with
  | some .fault => failure
  | some .stop => return none
  | none =>
      let (c, t) ← s.next false
      return some ([c], t)
  | some .gap =>
      let ((blanks, breaks), ⟨t, h⟩) ← gap least s
      if goesOn bracketed least breaks t then
        match wordEnd? bracketed t.text with
        | some .fault => failure
        | _ =>
            let (c, u) ← t.next false
            return some (joint blanks breaks ++ [c], u.within h)
      else return none

def plainRest (bracketed : Bool) (least : Nat) (s : Spot) : Option (List Char × From s) :=
  (readWhile Spot.size (plainPart bracketed least) s).map fun r => (r.1.flatten, r.2)

def plainStop : List Char :=
  ['-', '?', ':', ',', '[', ']', '\x7b', '\x7d', '#', '&', '*', '!', '|', '>', '\'', '"', '%',
    '@', '`']

def startsPlain (bracketed : Bool) : List Char → Bool
  | [] => false
  | c :: rest =>
      !(isGap c || isBreak c || plainStop.contains c) ||
        (c = '-' && !gapAhead rest) ||
        (!bracketed && (c = '?' || c = ':') && !gapAhead rest)

def plain (bracketed : Bool) (least : Nat) (s : Spot) : Option (Scalar × After s) := do
  if !startsPlain bracketed s.text ∨ s.atMarker then none
  let (c, ⟨t, h⟩) ← s.next false
  let (content, final) ← plainRest bracketed least t
  return (⟨c :: content, true⟩, final.behind h)

/-- A part of a scalar in single quotes, where a quote is written twice, or the closing
quote. -/
def singlePart (s : Spot) : Option (Piece (List Char) Unit × After s) := do
  if s.atMarker then none
  let (c, ⟨t, h⟩) ← s.next false
  if c = '\'' then
    if t.text.head? = some '\'' then
      let (_, u) ← t.next false
      return (.more ['\''], u.within (Spot.size_le_of_lt h))
    else return (.last (), ⟨t, h⟩)
  else if isGap c ∨ isBreak c then
    let ((blanks, breaks), ⟨u, _⟩) ← gap 0 s
    if h' : u.size < s.size then return (.more (joint blanks breaks), ⟨u, h'⟩) else none
  else return (.more [c], ⟨t, h⟩)

def singleRest (s : Spot) : Option (List Char × After s) :=
  (readToLast Spot.size singlePart s).map fun r => (r.1.1.flatten, r.2)

def letter? : Char → Option Char
  | '0' => some '\x00'
  | 'a' => some '\x07'
  | 'b' => some '\x08'
  | 't' | '\t' => some '\t'
  | 'n' => some '\n'
  | 'v' => some '\x0B'
  | 'f' => some '\x0C'
  | 'r' => some '\r'
  | 'e' => some '\x1B'
  | ' ' => some ' '
  | '"' => some '"'
  | '/' => some '/'
  | '\\' => some '\\'
  | 'N' => some '\x85'
  | '_' => some '\xA0'
  | 'L' => some '\u2028'
  | 'P' => some '\u2029'
  | _ => none

def digitCount? : Char → Option Nat
  | 'x' => some 2
  | 'u' => some 4
  | 'U' => some 8
  | _ => none

def numbered? (count : Nat) (text : List Char) : Option Char :=
  let digits := text.take count
  if digits.length < count then none
  else (natOfHex? digits).bind fun n =>
    if h : n.isValidChar then some (Char.ofNatAux n h) else none

def escape (s : Spot) : Option (Char × After s) := do
  let (c, ⟨t, h⟩) ← s.next false
  match digitCount? c with
  | some count =>
      let d ← numbered? count t.text
      have hle := Spot.size_ahead_le t count false
      return (d, ⟨t.ahead count false, Spot.size_lt_of_le_of_lt hle h⟩)
  | none =>
      let d ← letter? c
      return (d, ⟨t, h⟩)

/-- A part of a scalar in double quotes, with escapes, or the closing quotation mark.  A
backslash at the end of a line takes the line end away. -/
def doublePart (s : Spot) : Option (Piece (List Char) Unit × After s) := do
  if s.atMarker then none
  let (c, ⟨t, h⟩) ← s.next false
  if c = '"' then return (.last (), ⟨t, h⟩)
  else if c = '\\' then
    if t.text.head?.any isBreak then
      let ((_, breaks), u) ← gap 0 t
      return (.more (breaks.drop 1), u.behind h)
    else
      let (d, u) ← escape t
      return (.more [d], u.within (Spot.size_le_of_lt h))
  else if isGap c ∨ isBreak c then
    let ((blanks, breaks), ⟨u, _⟩) ← gap 0 s
    if h' : u.size < s.size then return (.more (joint blanks breaks), ⟨u, h'⟩) else none
  else return (.more [c], ⟨t, h⟩)

def doubleRest (s : Spot) : Option (List Char × After s) :=
  (readToLast Spot.size doublePart s).map fun r => (r.1.1.flatten, r.2)

/-- A scalar that flows over line ends. -/
def scalar (bracketed : Bool) (least : Nat) (s : Spot) : Option (Scalar × After s) := do
  match s.text.head? with
  | some '\'' =>
      let (_, ⟨t, h⟩) ← s.next false
      let (content, final) ← singleRest t
      return (⟨content, false⟩, final.within (Spot.size_le_of_lt h))
  | some '"' =>
      let (_, ⟨t, h⟩) ← s.next false
      let (content, final) ← doubleRest t
      return (⟨content, false⟩, final.within (Spot.size_le_of_lt h))
  | _ => plain bracketed least s

/-- The most characters from the start of a key to its colon. -/
def keyLimit : Nat := 1024

/-- The place behind the colon that makes a scalar a key.  A key stands on one line,
and after a blank between brackets any colon will do. -/
def colonAfter? (bracketed : Bool) (start s : Spot) : Option (After s) :=
  let ⟨t, h⟩ := s.word bracketed
  let between := start.text.take (start.size - t.size)
  match t.next false with
  | some (':', u) =>
      if (bracketed || gapAhead u.1.text) && !between.any isBreak &&
          between.length ≤ keyLimit then
        some (u.within h)
      else none
  | _ => none

end DocWeave.Yaml
