/-
Strings of a settings file: between quotation marks, with escapes, or between
apostrophes, as they are; and both over several lines, between three marks.
-/
import DocWeave.Text.Basic
import DocWeave.Text.Repeat

namespace DocWeave.Toml

abbrev Found (α : Type) (text : List Char) := Option (α × Remainder text)

def isBlank (c : Char) : Bool :=
  c = ' ' || c = '\t'

def skipBlank (text : List Char) : List Char :=
  text.dropWhile isBlank

/-- Control characters are not allowed anywhere, except for the tab. -/
def isPlain (c : Char) : Bool :=
  c = '\t' || (0x20 ≤ c.toNat && c.toNat ≠ 0x7F)

def lineEnd? (text : List Char) : Option (Remainder text) :=
  match text with
  | '\n' :: rest => some ⟨rest, length_lt_cons '\n' rest⟩
  | '\r' :: '\n' :: rest => some ⟨rest, length_lt_cons_cons '\r' '\n' rest⟩
  | _ => none

def letter? : Char → Option Char
  | 'b' => some '\x08'
  | 't' => some '\t'
  | 'n' => some '\n'
  | 'f' => some '\x0C'
  | 'r' => some '\r'
  | '"' => some '"'
  | '\\' => some '\\'
  | _ => none

def numbered? (count : Nat) (text : List Char) : Option Char :=
  let digits := text.take count
  if digits.length < count then none
  else (natOfHex? digits).bind fun n =>
    if h : n.isValidChar then some (Char.ofNatAux n h) else none

def escape (text : List Char) : Found Char text :=
  match text with
  | [] => none
  | c :: rest =>
      if c = 'u' then
        (numbered? 4 rest).map fun d => (d, ⟨rest.drop 4, length_drop_lt_cons 4 c rest⟩)
      else if c = 'U' then
        (numbered? 8 rest).map fun d => (d, ⟨rest.drop 8, length_drop_lt_cons 8 c rest⟩)
      else (letter? c).map fun d => (d, ⟨rest, length_lt_cons c rest⟩)

/-- One character of a string with escapes, or its closing quotation mark. -/
def basicPart (text : List Char) : Found (Piece Char Unit) text :=
  match text with
  | [] => none
  | c :: rest =>
      if c = '"' then some (.last (), ⟨rest, length_lt_cons c rest⟩)
      else if c = '\\' then
        (escape rest).map fun r => (.more r.1, r.2.within (length_le_cons c rest))
      else if isPlain c then some (.more c, ⟨rest, length_lt_cons c rest⟩)
      else none

def basic (text : List Char) : Found (List Char) text :=
  (readToLast List.length basicPart text).map fun r => (r.1.1, r.2)

def literalPart (text : List Char) : Found (Piece Char Unit) text :=
  match text with
  | [] => none
  | c :: rest =>
      if c = '\'' then some (.last (), ⟨rest, length_lt_cons c rest⟩)
      else if isPlain c then some (.more c, ⟨rest, length_lt_cons c rest⟩)
      else none

def literal (text : List Char) : Found (List Char) text :=
  (readToLast List.length literalPart text).map fun r => (r.1.1, r.2)

/-- The end of a string over several lines: three marks, before which up to two may
belong to the string. -/
def closing (mark : Char) (text : List Char) : Found (List Char) text :=
  match text with
  | [] => none
  | c :: rest =>
      let marks := ((c :: rest).takeWhile (· = mark)).length
      if 3 ≤ marks then
        let own := min (marks - 3) 2
        some (List.replicate own mark, ⟨rest.drop (2 + own), length_drop_lt_cons (2 + own) c rest⟩)
      else none

def skipLines (text : List Char) : List Char :=
  match text with
  | '\n' :: rest => skipLines rest
  | '\r' :: '\n' :: rest => skipLines rest
  | c :: rest => if isBlank c then skipLines rest else c :: rest
  | [] => []

theorem length_skipLines_le (text : List Char) : (skipLines text).length ≤ text.length := by
  fun_induction skipLines text with
  | case1 rest ih => exact Nat.le_succ_of_le ih
  | case2 rest ih => exact Nat.le_succ_of_le (Nat.le_succ_of_le ih)
  | case3 c rest _ _ _ ih => exact Nat.le_succ_of_le ih
  | case4 => exact Nat.le_refl _
  | case5 => exact Nat.le_refl _

theorem length_skipBlank_le (text : List Char) : (skipBlank text).length ≤ text.length :=
  length_dropWhile_le isBlank text

/-- The text behind a backslash at the end of a line, and behind all blanks and line
ends that follow. -/
def continued? (text : List Char) : Option (Remainder text) :=
  (lineEnd? (skipBlank text)).map fun ⟨rest, h⟩ =>
    have hlt := length_lt_of_lt_of_le h (length_skipBlank_le text)
    have hle := length_skipLines_le rest
    ⟨skipLines rest, length_lt_of_le_of_lt hle hlt⟩

/-- What a string over several lines holds at its start: characters that belong
together, or its end with the marks in front of it. -/
abbrev LinesPart (text : List Char) := Found (Piece (List Char) (List Char)) text

def plainPart (text : List Char) : LinesPart text :=
  match lineEnd? text with
  | some rest => some (.more ['\n'], rest)
  | none =>
      match text with
      | [] => none
      | c :: rest =>
          if isPlain c then some (.more [c], ⟨rest, length_lt_cons c rest⟩) else none

def basicLinesPart (text : List Char) : LinesPart text :=
  match closing '"' text with
  | some (marks, rest) => some (.last marks, rest)
  | none =>
      match text with
      | '\\' :: rest =>
          match continued? rest with
          | some after => some (.more [], after.within (length_le_cons '\\' rest))
          | none =>
              (escape rest).map fun r => (.more [r.1], r.2.within (length_le_cons '\\' rest))
      | text => plainPart text

def literalLinesPart (text : List Char) : LinesPart text :=
  match closing '\'' text with
  | some (marks, rest) => some (.last marks, rest)
  | none => plainPart text

def joinParts (part : (text : List Char) → LinesPart text) (text : List Char) :
    Found (List Char) text :=
  (readToLast List.length part text).map fun r => (r.1.1.flatten ++ r.1.2, r.2)

def basicLines (text : List Char) : Found (List Char) text :=
  joinParts basicLinesPart text

def literalLines (text : List Char) : Found (List Char) text :=
  joinParts literalLinesPart text

def dropLineEnd (text : List Char) : Rest text :=
  match lineEnd? text with
  | some ⟨rest, h⟩ => ⟨rest, length_le_of_lt h⟩
  | none => ⟨text, length_le_self text⟩

def shortString (text : List Char) : Found (List Char) text :=
  match text with
  | '"' :: rest => (basic rest).map fun r => (r.1, r.2.within (length_le_cons '"' rest))
  | '\'' :: rest => (literal rest).map fun r => (r.1, r.2.within (length_le_cons '\'' rest))
  | _ => none

/-- A string over several lines, behind its three opening marks.  A line end right
behind these does not count. -/
def longString (content : (text : List Char) → Found (List Char) text) (text : List Char) :
    Found (List Char) text :=
  let ⟨body, h⟩ := dropLineEnd text
  (content body).map fun r => (r.1, r.2.within h)

def string (text : List Char) : Found (List Char) text :=
  match text with
  | '"' :: '"' :: '"' :: rest =>
      (longString basicLines rest).map fun r =>
        (r.1, r.2.within (length_le_cons_cons_cons '"' '"' '"' rest))
  | '\'' :: '\'' :: '\'' :: rest =>
      (longString literalLines rest).map fun r =>
        (r.1, r.2.within (length_le_cons_cons_cons '\'' '\'' '\'' rest))
  | text => shortString text

end DocWeave.Toml
