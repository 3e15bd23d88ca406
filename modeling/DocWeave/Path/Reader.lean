/-
Reading the text of a path: a dollar sign, then segments.  A segment is a dot with
a name or a star, or brackets around a star, a whole number or a quoted name.
-/
import DocWeave.Decimal.Literal
import DocWeave.Path.Step
import DocWeave.Text.Alphanumeric
import DocWeave.Text.Basic
import DocWeave.Text.Repeat

namespace DocWeave.Path

structure Stop where
  flaw : Flaw
  rest : List Char
deriving DecidableEq

abbrev Part (α : Type) (text : List Char) := Except Stop (α × Rest text)

/-- The characters of a name that needs no quotes. -/
def isNameChar (c : Char) : Bool :=
  isAlphanumeric c || c = '_' || c = '-' || c = '@'

/-- The character that a backslash and a letter stand for in a quoted name. -/
def unescape? (c : Char) : Option Char :=
  match c with
  | 'n' => some '\n'
  | 't' => some '\t'
  | 'r' => some '\r'
  | '\\' => some '\\'
  | '\'' => some '\''
  | '"' => some '"'
  | _ => none

/-- A quoted name up to and including its closing quote. -/
def quotedName (quote : Char) : (text : List Char) → Part (List Char) text
  | [] => .error ⟨.unterminatedQuote, []⟩
  | [c] =>
      if c = quote then .ok ([], ⟨[], length_le_cons c []⟩) else .error ⟨.unterminatedQuote, []⟩
  | c :: d :: rest =>
      if c = quote then .ok ([], ⟨d :: rest, length_le_cons c (d :: rest)⟩)
      else if c = '\\' then
        match unescape? d with
        | none => .error ⟨.invalidEscape d, rest⟩
        | some char =>
            (quotedName quote rest).map fun r =>
              (char :: r.1, r.2.within (length_le_cons_cons c d rest))
      else
        (quotedName quote (d :: rest)).map fun r =>
          (c :: r.1, r.2.within (length_le_cons c (d :: rest)))

/-- A whole number, brought to the nearest one of 64 bits. -/
def clampIndex (n : Int) : Int64 :=
  Int64.ofInt (max Int64.minValue.toInt (min Int64.maxValue.toInt n))

/-- An optional minus sign and digits. -/
def indexLiteral (text : List Char) : Part Int64 text :=
  match text with
  | '-' :: rest =>
      let digits := rest.takeWhile Char.isDigit
      if digits.isEmpty then .error ⟨.expectedIndex, rest⟩
      else
        .ok (clampIndex (-(Decimal.natOfDigits digits : Int)),
          ⟨rest.dropWhile Char.isDigit, length_dropWhile_cons_le Char.isDigit '-' rest⟩)
  | text =>
      let digits := text.takeWhile Char.isDigit
      if digits.isEmpty then .error ⟨.expectedIndex, text⟩
      else
        .ok (clampIndex (Decimal.natOfDigits digits),
          ⟨text.dropWhile Char.isDigit, length_dropWhile_le Char.isDigit text⟩)

def bracketBody (text : List Char) : Part Step text :=
  match text with
  | [] => .error ⟨.unterminatedBracket, []⟩
  | c :: rest =>
      if c = '*' then .ok (.wildcard, ⟨rest, length_le_cons c rest⟩)
      else if c = '\'' ∨ c = '"' then
        match quotedName c rest with
        | .error stop => .error stop
        | .ok (name, after) =>
            if name.isEmpty then .error ⟨.emptyName, after.1⟩
            else .ok (.property (String.ofList name), after.within (length_le_cons c rest))
      else if c = '-' ∨ c.isDigit then
        (indexLiteral (c :: rest)).map fun r => (.index r.1, r.2)
      else if c = ']' then .error ⟨.emptyBrackets, c :: rest⟩
      else .error ⟨.unexpected c, c :: rest⟩

def closeBracket (text : List Char) : Except Stop (Rest text) :=
  match h : trimStart text with
  | [] => .error ⟨.missingClose, []⟩
  | c :: rest =>
      if c = ']' then .ok ⟨rest, length_le_of_trimStart h⟩
      else .error ⟨.unexpectedBeforeClose c, c :: rest⟩

def bracketSegment (text : List Char) : Part Step text := do
  let (step, ⟨rest, h⟩) ← bracketBody (trimStart text)
  let after ← closeBracket rest
  return (step, (after.within h).within (length_trimStart_le text))

def dotSegment (text : List Char) : Part Step text :=
  match text with
  | '*' :: rest => .ok (.wildcard, ⟨rest, length_le_cons '*' rest⟩)
  | '.' :: rest => .error ⟨.recursiveDescent, '.' :: rest⟩
  | text =>
      let name := text.takeWhile isNameChar
      if name.isEmpty then .error ⟨.emptySegment, text⟩
      else
        .ok (.property (String.ofList name),
          ⟨text.dropWhile isNameChar, length_dropWhile_le isNameChar text⟩)

def segment (c : Char) (rest : List Char) : Except Stop (Step × Remainder (c :: rest)) :=
  if c = '.' then
    (dotSegment rest).map fun r => (r.1, r.2.behind (length_lt_cons c rest))
  else if c = '[' then
    (bracketSegment rest).map fun r => (r.1, r.2.behind (length_lt_cons c rest))
  else .error ⟨.unexpected c, c :: rest⟩

def segments (text : List Char) : Except Stop Path :=
  readToEnd segment text

def read : List Char → Except Stop Path
  | '$' :: rest => segments rest
  | [] => .error ⟨.empty, []⟩
  | text => .error ⟨.noRoot, text⟩

/-- Reads the text of a path; an error keeps the text. -/
def parse (text : String) : Except PathError Path :=
  (read text.toList).mapError fun stop =>
    { path := text, flaw := stop.flaw
      position := text.toList.length - stop.rest.length }

end DocWeave.Path
