/-
Documents written as an outline: every line is `key: value`, or `key:` in front of
a deeper block of lines.  Comments and blank lines do not count.  A nested object is
stored in its parent when the outline comes back to the parent's level.
-/
import DocWeave.Text.Basic
import DocWeave.Value.Basic

namespace DocWeave.Yaml.Outline

/-- The line up to a comment.  A number sign starts one where a blank precedes it,
outside quotes; quotes open only at the start of a token, which is after a blank
or after a colon outside quotes. -/
def stripComment (quote : Option Char) (tokenStart afterBlank : Bool) :
    List Char → List Char
  | [] => []
  | c :: rest =>
      match quote with
      | some q =>
          c :: stripComment (if c = q then none else some q) (isSpace c) (isSpace c) rest
      | none =>
          if (c = '"' || c = '\'') && tokenStart then
            c :: stripComment (some c) false false rest
          else if c = '#' && afterBlank then []
          else c :: stripComment none (isSpace c || c = ':') (isSpace c) rest

def content (line : List Char) : List Char :=
  trimEnd (stripComment none true true line)

/-- A text without one pair of equal quotes around it. -/
def unquote (text : List Char) : List Char :=
  match text with
  | [] => []
  | c :: rest =>
      if (c = '"' ∨ c = '\'') ∧ rest.getLast? = some c then rest.dropLast else text

/-- Whether a text is a word, letters of ASCII counting the same in either case. -/
def isWord (word : String) (text : List Char) : Bool :=
  text.map Char.toLower == word.toList

def scalar (text : List Char) : Value :=
  if isWord "null" text then .null
  else if isWord "true" text then .bool true
  else if isWord "false" text then .bool false
  else match Number.read? text with
    | some n => .number n
    | none => .string (String.ofList (unquote text))

/-- A line with content: how far it is indented, in bytes, and what it says. -/
structure Line where
  indent : Nat
  key : String
  /-- Missing where the line opens a deeper block. -/
  value : Option Value

structure InvalidLine where
  content : String
deriving DecidableEq

def InvalidLine.message (e : InvalidLine) : String :=
  "invalid line: " ++ e.content

def Line.read (content : List Char) : Except InvalidLine Line :=
  let body := trimStart content
  let key := body.takeWhile (· ≠ ':')
  match body.dropWhile (· ≠ ':') with
  | [] => .error ⟨String.ofList body⟩
  | _ :: rest =>
      let value := trim rest
      .ok {
        indent := utf8Length (content.takeWhile isSpace)
        key := String.ofList (unquote (trim key))
        value := if value.isEmpty then none else some (scalar value) }

/-- An open block: the line that opened it and the object it will be stored in. -/
structure Opener where
  indent : Nat
  key : String
  outer : Entries Value

def Opener.close (inner : Entries Value) (opener : Opener) : Entries Value :=
  Entries.insert opener.key (.object inner) opener.outer

/-- Leaves every block whose opening line is indented at least as far as the line
that follows. -/
def dedent (indent : Nat) (current : Entries Value) :
    List Opener → Entries Value × List Opener
  | [] => (current, [])
  | opener :: rest =>
      if indent ≤ opener.indent then dedent indent (opener.close current) rest
      else (current, opener :: rest)

/-- The object under construction and the blocks around it, innermost first. -/
abbrev State := Entries Value × List Opener

def State.step (state : State) (line : Line) : State :=
  let (current, openers) := dedent line.indent state.1 state.2
  match line.value with
  | some value => (Entries.insert line.key value current, openers)
  | none => ([], ⟨line.indent, line.key, current⟩ :: openers)

def State.finish (state : State) : Entries Value :=
  state.2.foldl Opener.close state.1

/-- Takes in lines up to the first that is no line of an outline. -/
def State.run (state : State) : List (List Char) → Except InvalidLine State
  | [] => .ok state
  | content :: rest => do
      let line ← Line.read content
      State.run (state.step line) rest

def parse (text : String) : Except InvalidLine Value := do
  let contents := ((lines text.toList).map content).filter fun line => !isBlankText line
  let state ← State.run ([], []) contents
  return .object state.finish

end DocWeave.Yaml.Outline
