/-
Paths into a document: a root followed by steps, each of which names a member,
counts to an item, or takes every item.
-/

namespace DocWeave

inductive Step where
  | property (name : String)
  /-- Counted from the end when negative. -/
  | index (i : Int64)
  | wildcard
deriving DecidableEq

abbrev Path := List Step

inductive Path.Flaw where
  | empty
  | noRoot
  | unexpected (c : Char)
  | unexpectedBeforeClose (c : Char)
  | missingClose
  | recursiveDescent
  | emptySegment
  | unterminatedBracket
  | emptyName
  | emptyBrackets
  | expectedIndex
  | invalidEscape (c : Char)
  | unterminatedQuote
deriving DecidableEq

/-- The wording of a flaw at a position, counted in characters. -/
def Path.Flaw.message (position : Nat) : Path.Flaw → String
  | empty => "path is empty"
  | noRoot => "path must start with '$'"
  | unexpected c => "invalid character '" ++ c.toString ++ "' at position " ++ position.repr
  | unexpectedBeforeClose c =>
      "expected ']' but found '" ++ c.toString ++ "' at position " ++ position.repr
  | missingClose => "missing closing bracket"
  | recursiveDescent => "recursive descent is not supported"
  | emptySegment => "empty property name at position " ++ position.repr
  | unterminatedBracket => "unterminated bracket"
  | emptyName => "empty property name"
  | emptyBrackets => "empty brackets"
  | expectedIndex => "expected array index"
  | invalidEscape c => "invalid escape sequence '\\" ++ c.toString ++ "'"
  | unterminatedQuote => "unterminated quote"

structure PathError where
  /-- The text as it was given. -/
  path : String
  flaw : Path.Flaw
  /-- How many characters stand before the flaw. -/
  position : Nat
deriving DecidableEq

namespace PathError

def reason (e : PathError) : String :=
  e.flaw.message e.position

def message (e : PathError) : String :=
  "invalid path '" ++ e.path ++ "': " ++ e.reason

end PathError

end DocWeave
