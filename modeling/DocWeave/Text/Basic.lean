/-
The plain parts of text: white space, as Unicode defines it, and trimming; lines; and
hexadecimal digits.
-/
import DocWeave.Text.Remainder

namespace DocWeave

/-! ### White space -/

/-- Whether a character has the Unicode property White_Space. -/
def isSpace (c : Char) : Bool :=
  let n := c.toNat
  (0x09 ≤ n && n ≤ 0x0D) || n = 0x20 || n = 0x85 || n = 0xA0 || n = 0x1680 ||
    (0x2000 ≤ n && n ≤ 0x200A) || n = 0x2028 || n = 0x2029 || n = 0x202F ||
    n = 0x205F || n = 0x3000

/-- Every blank of the core library is white space. -/
theorem isSpace_of_isWhitespace {c : Char} (h : c.isWhitespace = true) :
    isSpace c = true := by
  simp only [Char.isWhitespace, Bool.or_eq_true, decide_eq_true_eq] at h
  rcases h with ((rfl | rfl) | rfl) | rfl <;> decide

/-- The text from its first character that is not white space. -/
def trimStart (text : List Char) : List Char :=
  text.dropWhile isSpace

def trimEnd (text : List Char) : List Char :=
  (text.reverse.dropWhile isSpace).reverse

def trim (text : List Char) : List Char :=
  trimEnd (trimStart text)

def isBlankText (text : List Char) : Bool :=
  text.all isSpace

theorem length_trimStart_le (text : List Char) :
    (trimStart text).length ≤ text.length :=
  length_dropWhile_le isSpace text

theorem length_lt_of_trimStart {text rest : List Char} {c : Char}
    (h : trimStart text = c :: rest) : rest.length < text.length := by
  have := length_trimStart_le text
  rwa [h] at this

theorem length_le_of_trimStart {text rest : List Char} {c : Char}
    (h : trimStart text = c :: rest) : rest.length ≤ text.length :=
  Nat.le_of_lt (length_lt_of_trimStart h)

/-! ### Lines -/

def consLine (c : Char) : List (List Char) → List (List Char)
  | [] => [[c]]
  | line :: rest => (c :: line) :: rest

/-- The lines of a text: each ends with a line feed, or a carriage return and a
line feed, and the last one may go without. -/
def lines : List Char → List (List Char)
  | [] => []
  | '\n' :: rest => [] :: lines rest
  | '\r' :: '\n' :: rest => [] :: lines rest
  | c :: rest => consLine c (lines rest)

/-! ### Hexadecimal digits -/

def hexValue? (c : Char) : Option Nat :=
  if c.isDigit then some (c.toNat - '0'.toNat)
  else if 'a' ≤ c ∧ c ≤ 'f' then some (c.toNat - 'a'.toNat + 10)
  else if 'A' ≤ c ∧ c ≤ 'F' then some (c.toNat - 'A'.toNat + 10)
  else none

/-- The number that a run of hexadecimal digits denotes, if it holds nothing
else. -/
def natOfHex? (digits : List Char) : Option Nat :=
  digits.foldlM (fun n c => (hexValue? c).map (16 * n + ·)) 0

/-- A number as exactly `width` lower-case hexadecimal digits. -/
def hexDigits (width n : Nat) : List Char :=
  let digits := Nat.toDigits 16 n
  List.replicate (width - digits.length) '0' ++ digits

end DocWeave
