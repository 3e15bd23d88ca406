/-
Writing documents as JSON text, on one line or indented.  Members keep their
order; doubles are written with the fewest digits that read back.
-/
import DocWeave.Json.Quoted
import DocWeave.Value.Basic

namespace DocWeave.Json

/-- Doubles are positional from `1e-5` up to `1e16` and always show a fraction
there; beyond, a positive exponent has its sign. -/
def numberLayout : Decimal.Layout :=
  { Decimal.Layout.marked with
    tie := .even, positional := fun e => -5 ≤ e && e ≤ 15, plus := "+" }

/-- A number as it stands in the output.  What is not finite has no number in
JSON. -/
def numberText : Number → List Char
  | .integer n => (toString n.toInt).toList
  | .float x => if x.isFinite then (numberLayout.text x).toList else "null".toList

def quoted (text : String) : List Char :=
  Quoted.encode text.toList

mutual

/-- A document on one line, without blanks. -/
def compact : Value → List Char
  | .null => "null".toList
  | .bool b => (if b then "true" else "false").toList
  | .number n => numberText n
  | .string s => quoted s
  | .array items => '[' :: compactItems items ++ [']']
  | .object members => '\x7b' :: compactMembers members ++ ['\x7d']

def compactItems : List Value → List Char
  | [] => []
  | [item] => compact item
  | item :: next :: rest => compact item ++ ',' :: compactItems (next :: rest)

def compactMembers : List (String × Value) → List Char
  | [] => []
  | [(key, value)] => quoted key ++ ':' :: compact value
  | (key, value) :: next :: rest =>
      quoted key ++ ':' :: compact value ++ ',' :: compactMembers (next :: rest)

end

/-- A new line at an indentation of two blanks a level. -/
def newLine (level : Nat) : List Char :=
  '\n' :: List.replicate (2 * level) ' '

mutual

/-- A document over several lines, each container one level deeper. -/
def pretty (level : Nat) : Value → List Char
  | .array (item :: rest) =>
      '[' :: prettyItems (level + 1) (item :: rest) ++ newLine level ++ [']']
  | .object (member :: rest) =>
      '\x7b' :: prettyMembers (level + 1) (member :: rest) ++ newLine level ++ ['\x7d']
  | .array [] => ['[', ']']
  | .object [] => ['\x7b', '\x7d']
  | .null => "null".toList
  | .bool b => (if b then "true" else "false").toList
  | .number n => numberText n
  | .string s => quoted s

def prettyItems (level : Nat) : List Value → List Char
  | [] => []
  | [item] => newLine level ++ pretty level item
  | item :: next :: rest =>
      newLine level ++ pretty level item ++ ',' :: prettyItems level (next :: rest)

def prettyMembers (level : Nat) : List (String × Value) → List Char
  | [] => []
  | [(key, value)] => newLine level ++ quoted key ++ ':' :: ' ' :: pretty level value
  | (key, value) :: next :: rest =>
      newLine level ++ quoted key ++ ':' :: ' ' :: pretty level value ++
        ',' :: prettyMembers level (next :: rest)

end

def compactText (v : Value) : String :=
  String.ofList (compact v)

end DocWeave.Json
