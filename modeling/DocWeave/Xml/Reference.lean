/-
References in text: the five predefined entities, and characters by number.  There
are no others, so nothing is ever expanded.
-/
import DocWeave.Decimal.Literal
import DocWeave.Text.Basic
import DocWeave.Text.Repeat
import DocWeave.Text.Search
import DocWeave.Xml.Flaw

namespace DocWeave.Xml

/-- The character with a code point, unless it is half of a surrogate pair or
beyond the last one. -/
def charOfCode? (n : Nat) : Option Char :=
  if n.isValidChar then some (Char.ofNat n) else none

/-- Digits after an optional plus sign, of which there is at least one. -/
def unsignedDigits? (text : List Char) : Option (List Char) :=
  let digits := match text with
    | '+' :: rest => rest
    | text => text
  if digits.isEmpty then none else some digits

def decimalCode? (text : List Char) : Option Nat :=
  (unsignedDigits? text).bind fun digits =>
    if digits.all Char.isDigit then some (Decimal.natOfDigits digits) else none

def hexCode? (text : List Char) : Option Nat :=
  (unsignedDigits? text).bind natOfHex?

def numbered (name : List Char) (code : Option Nat) : Except Flaw Char :=
  match code.bind charOfCode? with
  | some c => .ok c
  | none => .error (.invalidReference (String.ofList name))

/-- The character that stands for a reference, given what is between its ampersand
and its semicolon. -/
def referenced (name : List Char) : Except Flaw Char :=
  if name = "lt".toList then .ok '<'
  else if name = "gt".toList then .ok '>'
  else if name = "amp".toList then .ok '&'
  else if name = "quot".toList then .ok '"'
  else if name = "apos".toList then .ok '\''
  else match name with
    | '#' :: 'x' :: digits => numbered name (hexCode? digits)
    | '#' :: 'X' :: digits => numbered name (hexCode? digits)
    | '#' :: digits => numbered name (decimalCode? digits)
    | _ => .error (.unknownEntity (String.ofList name))

def character (c : Char) (rest : List Char) : Except Flaw (Char × Remainder (c :: rest)) :=
  if c = '&' then
    match h : breakOn [';'] rest with
    | none => .error .unterminatedReference
    | some (name, after) =>
        have hle := length_breakOn_le h
        (referenced name).map fun char => (char, ⟨after, length_lt_cons_of_le c hle⟩)
  else .ok (c, ⟨rest, length_lt_cons c rest⟩)

/-- A text with every reference replaced, from left to right and once. -/
def decode (text : List Char) : Except Flaw (List Char) :=
  readToEnd character text

end DocWeave.Xml
