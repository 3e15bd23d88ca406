/-
Why a text is not the JSON that was asked for, and where that showed.  A reader
knows only what it has left; the line and the column are worked out once, from the
whole text, when the fault is reported.
-/
import DocWeave.Text.Remainder

namespace DocWeave.Json

inductive Reason where
  | endInValue
  | endInString
  | endInList
  | endInObject
  | expectedValue
  | expectedWord
  | expectedColon
  | expectedListSeparator
  | expectedObjectSeparator
  | keyNotString
  | trailingComma
  | trailingCharacters
  | invalidNumber
  | numberOutOfRange
  | controlCharacter
  | invalidEscape
  | unpairedSurrogate
  | missingSecondSurrogate
  | tooDeep
deriving Repr, DecidableEq

def Reason.message : Reason → String
  | endInValue => "EOF while parsing a value"
  | endInString => "EOF while parsing a string"
  | endInList => "EOF while parsing a list"
  | endInObject => "EOF while parsing an object"
  | expectedValue => "expected value"
  | expectedWord => "expected ident"
  | expectedColon => "expected `:`"
  | expectedListSeparator => "expected `,` or `]`"
  | expectedObjectSeparator => "expected `,` or `\x7d`"
  | keyNotString => "key must be a string"
  | trailingComma => "trailing comma"
  | trailingCharacters => "trailing characters"
  | invalidNumber => "invalid number"
  | numberOutOfRange => "number out of range"
  | controlCharacter =>
      "control character (\\u0000-\\u001F) found while parsing a string"
  | invalidEscape => "invalid escape"
  | unpairedSurrogate => "lone leading surrogate in hex escape"
  | missingSecondSurrogate => "unexpected end of hex escape"
  | tooDeep => "recursion limit exceeded"

/-- A reason, what was left to read, and how many bytes of that had been looked
at already. -/
structure Fault (ρ : Type) where
  reason : ρ
  rest : List Char
  seen : Nat

def Fault.map {ρ σ : Type} (f : ρ → σ) (fault : Fault ρ) : Fault σ :=
  ⟨f fault.reason, fault.rest, fault.seen⟩

/-- A reader consumes part of a text or stops at a fault. -/
abbrev Reader (ρ α : Type) := (text : List Char) → Except (Fault ρ) (α × Remainder text)

/-- Stops in front of what is left. -/
def stopAt {ρ α : Type} (reason : ρ) (rest : List Char) : Except (Fault ρ) α :=
  .error ⟨reason, rest, 0⟩

/-- Stops at the next byte, which has been looked at. -/
def stopOn {ρ α : Type} (reason : ρ) (rest : List Char) : Except (Fault ρ) α :=
  .error ⟨reason, rest, 1⟩

/-- A place in a text: lines count from one, columns count the bytes of the line
that have been passed. -/
structure Position where
  line : Nat
  column : Nat
deriving Repr, DecidableEq

/-- The place after a number of bytes, which may end inside a character. -/
def Position.advance (position : Position) : List Char → Nat → Position
  | [], _ => position
  | c :: rest, bytes =>
      if bytes < c.utf8Size then { position with column := position.column + bytes }
      else if c = '\n' then Position.advance ⟨position.line + 1, 0⟩ rest (bytes - c.utf8Size)
      else
        Position.advance ⟨position.line, position.column + c.utf8Size⟩ rest
          (bytes - c.utf8Size)

def Fault.position {ρ : Type} (text : List Char) (fault : Fault ρ) : Position :=
  let size := utf8Length text
  Position.advance ⟨1, 0⟩ text (min size (size - utf8Length fault.rest + fault.seen))

def Position.describe (position : Position) (reason : String) : String :=
  reason ++ " at line " ++ Nat.repr position.line ++ " column " ++ Nat.repr position.column

end DocWeave.Json
