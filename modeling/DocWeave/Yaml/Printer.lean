/-
Writing documents in block style.  Objects nest by two blanks; an array in an
object stands at the level of its key, and containers in an array start on the
line of their dash.
-/
import DocWeave.Text.Remainder
import DocWeave.Value.Basic
import DocWeave.Yaml.Style

namespace DocWeave.Yaml

/-- Doubles are positional from `1e-5` up to `1e16` and always show a fraction
there. -/
def numberLayout : Decimal.Layout :=
  { Decimal.Layout.marked with
    tie := .even, positional := fun e => -5 ≤ e && e ≤ 15
    nan := ".nan", infinity := ".inf" }

def escapeLetter? (c : Char) : Option Char :=
  match c with
  | '\x00' => some '0'
  | '\x07' => some 'a'
  | '\x08' => some 'b'
  | '\t' => some 't'
  | '\n' => some 'n'
  | '\x0b' => some 'v'
  | '\x0c' => some 'f'
  | '\r' => some 'r'
  | '\x1b' => some 'e'
  | '"' => some '"'
  | '\\' => some '\\'
  | '\x85' => some 'N'
  | '\u2028' => some 'L'
  | '\u2029' => some 'P'
  | _ => none

/-- A code point as the shortest of the numeric escapes. -/
def numericEscape (n : Nat) : List Char :=
  let upper := fun width => (hexDigits width n).map Char.toUpper
  if n ≤ 0xFF then 'x' :: upper 2
  else if n ≤ 0xFFFF then 'u' :: upper 4
  else 'U' :: upper 8

def doubleEscape (c : Char) : List Char :=
  match escapeLetter? c with
  | some letter => ['\\', letter]
  | none => if isPrintable c then [c] else '\\' :: numericEscape c.toNat

def doubleQuoted (text : List Char) : List Char :=
  '"' :: (text.flatMap doubleEscape ++ ['"'])

def blanks (indent : Nat) : List Char :=
  List.replicate indent ' '

/-- Lines at a level: behind every line end the next line is brought to it, empty
lines excepted. -/
def indented (indent : Nat) (atStart : Bool) (write : Char → List Char) :
    List Char → List Char
  | [] => []
  | c :: rest =>
      if isBreak c then c :: indented indent true write rest
      else (if atStart then blanks indent else []) ++ write c ++ indented indent false write rest

def singleQuoted (indent : Nat) (text : List Char) : List Char :=
  let write := fun c => if c = '\'' then ['\'', '\''] else [c]
  let close := if text.getLast?.any isBreak then blanks indent ++ ['\''] else ['\'']
  '\'' :: (indented indent false write text ++ close)

/-- What is said about the line ends at the end of a block: none, or all of them
kept when there is more than one. -/
def chomping (text : List Char) : List Char :=
  match text.reverse with
  | [] => ['-']
  | [c] => if isBreak c then ['+'] else ['-']
  | c :: d :: _ => if !isBreak c then ['-'] else if isBreak d then ['+'] else []

/-- A text as a block of lines.  The level is given when the first line does not
show it. -/
def literal (indent : Nat) (text : List Char) : List Char :=
  let hint := if text.head?.any (fun c => c = ' ' || isBreak c) then ['2'] else []
  '|' :: (hint ++ chomping text ++ '\n' :: indented indent true (fun c => [c]) text)

def textScalar (indent : Nat) (text : String) : List Char :=
  let chars := text.toList
  match styleOf chars with
  | .plain => chars
  | .single => singleQuoted indent chars
  | .double => doubleQuoted chars
  | .literal => literal indent chars

def numberScalar : Number → List Char
  | .integer n => (toString n.toInt).toList
  | .float x => (numberLayout.text x).toList

/-- A new line at a level, unless a line has just ended. -/
def nextLine (before : List Char) (indent : Nat) : List Char :=
  (if before.getLast?.any isBreak then [] else ['\n']) ++ blanks indent

/-- Whether a key can stand in front of its colon on one line. -/
def isSimpleKey (key : String) : Bool :=
  !key.toList.any isBreak && utf8Length key.toList ≤ 128

/-- A scalar on the line of its key, or behind a dash or a mark. -/
def onLine (behindKey : Bool) (scalar : List Char) : List Char :=
  if behindKey then ' ' :: scalar else scalar

/-- A container on lines of its own below its key, or on the line of a dash or a
mark. -/
def onNextLine (behindKey : Bool) (indent : Nat) (container : List Char) : List Char :=
  if behindKey then '\n' :: (blanks indent ++ container) else container

/-- A member of an object at a level, given how its value is written.  A key that
does not fit on its line is marked, and so is its value on the next one. -/
def member (indent : Nat) (key : String) (value : List Char) : List Char :=
  let name := textScalar (indent + 2) key
  if isSimpleKey key then name ++ ':' :: value
  else '?' :: ' ' :: (name ++ nextLine name indent ++ ':' :: ' ' :: value)

mutual

/-- A value in a container at a level, behind its key or behind a dash or a
mark. -/
def node (behindKey : Bool) (indent : Nat) : Value → List Char
  | .array items =>
      if items.isEmpty then onLine behindKey ['[', ']']
      else if behindKey then onNextLine true indent (sequence indent items)
      else sequence (indent + 2) items
  | .object members =>
      if members.isEmpty then onLine behindKey ['\x7b', '\x7d']
      else onNextLine behindKey (indent + 2) (mapping (indent + 2) members)
  | .null => onLine behindKey "null".toList
  | .bool b => onLine behindKey (if b then "true" else "false").toList
  | .number n => onLine behindKey (numberScalar n)
  | .string s => onLine behindKey (textScalar (indent + 2) s)

/-- The items of an array at a level; the first one starts where the text is. -/
def sequence (indent : Nat) : List Value → List Char
  | [] => []
  | item :: rest =>
      let first := '-' :: ' ' :: node false indent item
      if rest.isEmpty then first
      else first ++ nextLine first indent ++ sequence indent rest

def mapping (indent : Nat) : List (String × Value) → List Char
  | [] => []
  | (key, value) :: rest =>
      let first := member indent key (node (isSimpleKey key) indent value)
      if rest.isEmpty then first
      else first ++ nextLine first indent ++ mapping indent rest

end

/-- A document; the end of its last line may be missing. -/
def document : Value → List Char
  | .array (item :: rest) => sequence 0 (item :: rest)
  | .object (member :: rest) => mapping 0 (member :: rest)
  | v => node false 0 v

end DocWeave.Yaml
