/-
How a text is written as a scalar: plain if it can be mistaken for nothing else,
otherwise in quotes, or as a block of lines when it has several.
-/
import DocWeave.Yaml.Scalar
import DocWeave.Yaml.Spot

namespace DocWeave.Yaml

inductive Style where
  | plain
  | single
  | double
  | literal
deriving Repr, DecidableEq

def isBlankOrBreak (c : Char) : Bool :=
  c = ' ' || c = '\t' || isBreak c || c = '\x00'

def isPrintable (c : Char) : Bool :=
  let n := c.toNat
  n = 0x0A || (0x20 ≤ n && n ≤ 0x7E) ||
    (0xA0 ≤ n && n ≠ 0xFEFF && n ≠ 0xFFFE && n ≠ 0xFFFF)

/-- Characters that no plain text starts with. -/
def leadingIndicators : List Char :=
  ['#', ',', '[', ']', '\x7b', '\x7d', '&', '*', '!', '|', '>', '\'', '"', '%', '@', '`']

def blankFollows : List Char → Bool
  | [] => true
  | c :: _ => isBlankOrBreak c

/-- Whether a later character has a meaning of its own: a colon in front of a blank,
or a number sign behind one. -/
def hasInnerIndicator (afterBlank : Bool) : List Char → Bool
  | [] => false
  | c :: rest =>
      (c = ':' && blankFollows rest) || (c = '#' && afterBlank) ||
        hasInnerIndicator (isBlankOrBreak c) rest

def hasIndicator (text : List Char) : Bool :=
  "---".toList.isPrefixOf text || "...".toList.isPrefixOf text ||
    match text with
    | [] => false
    | c :: rest =>
        leadingIndicators.contains c ||
          ((c = '?' || c = ':' || c = '-') && blankFollows rest) ||
          hasInnerIndicator (isBlankOrBreak c) rest

def hasNeighbours (p : Char → Char → Bool) : List Char → Bool
  | c :: d :: rest => p c d || hasNeighbours p (d :: rest)
  | _ => false

def hasSpaceBreak (text : List Char) : Bool :=
  hasNeighbours (fun c d => c = ' ' && isBreak d) text

def hasBreakSpace (text : List Char) : Bool :=
  hasNeighbours (fun c d => isBreak c && d = ' ') text

/-- A space or a line end at either end. -/
def isSpacedOut (text : List Char) : Bool :=
  let spacing := fun c => c = ' ' || isBreak c
  text.head?.any spacing || text.getLast?.any spacing

def plainAllowed (text : List Char) : Bool :=
  !text.isEmpty && text.all isPrintable && !text.any isBreak && !isSpacedOut text &&
    !hasIndicator text

def singleAllowed (text : List Char) : Bool :=
  text.all isPrintable && !hasBreakSpace text && !hasSpaceBreak text

def literalAllowed (text : List Char) : Bool :=
  !text.isEmpty && text.all isPrintable && !hasSpaceBreak text && text.getLast? != some ' '

/-- The style that the meaning of a text asks for: text that reads as something
else is quoted, and so is a number with zeros in front. -/
def wantedStyle (text : List Char) : Style :=
  if text.contains '\n' then .literal
  else match Meaning.ofPlain text with
    | .text => if Meaning.isZeroPadded text then .single else .plain
    | _ => .single

/-- The style that a text gets: each style that is not possible gives way to a
stricter one. -/
def styleOf (text : List Char) : Style :=
  match wantedStyle text with
  | .plain =>
      if plainAllowed text then .plain
      else if singleAllowed text then .single
      else .double
  | .single => if singleAllowed text then .single else .double
  | .literal => if literalAllowed text then .literal else .double
  | .double => .double

end DocWeave.Yaml
