/-
Quoted text: quotation marks, backslashes and control characters are escaped on
the way out, and every escape is undone on the way in.
-/
import DocWeave.Json.Fault
import DocWeave.Text.Basic
import DocWeave.Text.Repeat

namespace DocWeave.Json.Quoted

def escape (c : Char) : List Char :=
  if c = '"' then ['\\', '"']
  else if c = '\\' then ['\\', '\\']
  else if c = '\n' then ['\\', 'n']
  else if c = '\r' then ['\\', 'r']
  else if c = '\t' then ['\\', 't']
  else if c = '\x08' then ['\\', 'b']
  else if c = '\x0c' then ['\\', 'f']
  else if c.toNat < 0x20 then '\\' :: 'u' :: hexDigits 4 c.toNat
  else [c]

def encode (text : List Char) : List Char :=
  '"' :: (text.flatMap escape ++ ['"'])

def letter? (c : Char) : Option Char :=
  match c with
  | '"' => some '"'
  | '\\' => some '\\'
  | '/' => some '/'
  | 'b' => some '\x08'
  | 'f' => some '\x0c'
  | 'n' => some '\n'
  | 'r' => some '\r'
  | 't' => some '\t'
  | _ => none

/-- Four hexadecimal digits.  They are looked for in the next four bytes, so a
text that is too short is different from one with other characters. -/
def codeUnit : Reader Reason Nat
  | a :: b :: c :: d :: rest =>
      match natOfHex? [a, b, c, d] with
      | some n => .ok (n, ⟨rest, by simp only [List.length_cons]; omega⟩)
      | none => .error ⟨.invalidEscape, a :: b :: c :: d :: rest, 4⟩
  | text => if utf8Length text < 4 then stopAt .endInString [] else .error ⟨.invalidEscape, text, 4⟩

def isHighSurrogate (n : Nat) : Bool := 0xD800 ≤ n && n ≤ 0xDBFF

def isLowSurrogate (n : Nat) : Bool := 0xDC00 ≤ n && n ≤ 0xDFFF

def expectInPair (expected : Char) : (text : List Char) → Except (Fault Reason) (Remainder text)
  | [] => stopAt .endInString []
  | c :: rest =>
      if c = expected then .ok ⟨rest, length_lt_cons c rest⟩
      else stopOn .missingSecondSurrogate (c :: rest)

/-- The character of a `\u` escape: one code unit, or a pair of them. -/
def unicodeEscape (text : List Char) : Except (Fault Reason) (Char × Remainder text) := do
  let (first, ⟨rest, h⟩) ← codeUnit text
  if isLowSurrogate first then stopAt .unpairedSurrogate rest
  else if isHighSurrogate first then
    let ⟨rest₁, h₁⟩ ← expectInPair '\\' rest
    have hlt := length_lt_trans h₁ h
    let ⟨rest₂, h₂⟩ ← expectInPair 'u' rest₁
    have hlt := length_lt_trans h₂ hlt
    let (second, ⟨rest₃, h₃⟩) ← codeUnit rest₂
    if isLowSurrogate second then
      return (Char.ofNat (0x10000 + (first - 0xD800) * 0x400 + (second - 0xDC00)),
        ⟨rest₃, length_lt_trans h₃ hlt⟩)
    else stopAt .unpairedSurrogate rest₃
  else return (Char.ofNat first, ⟨rest, h⟩)

def unescape : Reader Reason Char
  | [] => stopAt .endInString []
  | c :: rest =>
      match letter? c with
      | some char => .ok (char, ⟨rest, length_lt_cons c rest⟩)
      | none =>
          if c = 'u' then do
            let (char, rest') ← unicodeEscape rest
            return (char, rest'.within (length_le_cons c rest))
          else stopOn .invalidEscape (c :: rest)

/-- Reads one character of a string, or its closing quotation mark. -/
def character : Reader Reason (Piece Char Unit)
  | [] => stopAt .endInString []
  | c :: rest =>
      if c = '"' then .ok (.last (), ⟨rest, length_lt_cons c rest⟩)
      else if c = '\\' then
        (unescape rest).map fun r => (.more r.1, r.2.within (length_le_cons c rest))
      else if c.toNat < 0x20 then stopOn .controlCharacter (c :: rest)
      else .ok (.more c, ⟨rest, length_lt_cons c rest⟩)

def decode (text : List Char) : Except (Fault Reason) (List Char × Remainder text) :=
  (readToLast List.length character text).map fun r => (r.1.1, r.2)

end DocWeave.Json.Quoted
