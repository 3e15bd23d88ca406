/-
Reading a settings file: lines that give keys values, under headers of tables.  Only
whether a file can be read counts, not why it cannot.
-/
import DocWeave.Toml.Quoted
import DocWeave.Toml.Scalar

namespace DocWeave.Toml

def first (text : List Char) : Found Char text :=
  match text with
  | [] => none
  | c :: rest => some (c, ⟨rest, length_lt_cons c rest⟩)

/-- The first character of a text that is not blank. -/
def mark (text : List Char) : Found Char text :=
  (first (skipBlank text)).map fun r => (r.1, r.2.within (length_skipBlank_le text))

def isKeyChar (c : Char) : Bool :=
  c.isAlphanum || c = '_' || c = '-'

def keyPart (text : List Char) : Found String text :=
  match text with
  | [] => none
  | c :: rest =>
      if c = '"' ∨ c = '\'' then
        (shortString (c :: rest)).map fun r => (String.ofList r.1, r.2)
      else if isKeyChar c then
        some (String.ofList (c :: rest.takeWhile isKeyChar),
          ⟨rest.dropWhile isKeyChar, length_dropWhile_lt_cons isKeyChar c rest⟩)
      else none

/-- One part of a key with the blanks around it, and the dot behind it; without a dot
it is the last one. -/
def dottedPart (text : List Char) : Found (Piece String String) text := do
  let (part, found) ← keyPart (skipBlank text)
  let ⟨rest, h⟩ := found.within (length_skipBlank_le text)
  match mark rest with
  | some ('.', after) => return (.more part, after.within (length_le_of_lt h))
  | _ =>
      have hle := length_skipBlank_le rest
      return (.last part, ⟨skipBlank rest, length_lt_of_le_of_lt hle h⟩)

/-- A key: parts with dots between them, and blanks around each. -/
def key (text : List Char) : Found (List String) text :=
  (readToLast List.length dottedPart text).map fun r => (r.1.1 ++ [r.1.2], r.2)

def skipComment (text : List Char) : List Char :=
  match text with
  | '#' :: rest => rest.dropWhile isPlain
  | text => text

theorem length_skipComment_le (text : List Char) :
    (skipComment text).length ≤ text.length := by
  unfold skipComment
  split
  · exact Nat.le_succ_of_le (length_dropWhile_le isPlain _)
  · exact Nat.le_refl _

/-- A line that holds nothing but blanks and perhaps a comment, if that is next. -/
def emptyLine (text : List Char) : Id (Option (Unit × Remainder text)) :=
  (lineEnd? (skipComment (skipBlank text))).map fun rest =>
    ((), (rest.within (length_skipComment_le (skipBlank text))).within (length_skipBlank_le text))

/-- The text behind blanks, comments and line ends.  A comment has to end in a line
end, or with the text. -/
def skipSpace (text : List Char) : Option (Rest text) :=
  let ⟨rest, h⟩ := (readWhile List.length emptyLine text).2
  let start := skipBlank rest
  if start.head? = some '#' then
    if (skipComment start).isEmpty then some ⟨[], Nat.zero_le text.length⟩ else none
  else
    have hle := length_skipBlank_le rest
    some ⟨start, length_le_trans hle h⟩

section Containers

variable (part : (text : List Char) → Found Node text)

/-- An item of an array with the comma behind it, or the end of the array, perhaps with
an item in front of it. -/
def itemPart (text : List Char) : Found (Piece Node (Option Node)) text := do
  let ⟨start, h⟩ ← skipSpace text
  let (c, behind) ← first start
  if c = ']' then return (.last none, behind.within h)
  let (item, ⟨rest₁, h₁⟩) ← part start
  have hlt := length_lt_of_lt_of_le h₁ h
  let ⟨rest₂, h₂⟩ ← skipSpace rest₁
  have hlt := length_lt_of_le_of_lt h₂ hlt
  let (d, ⟨after, h₃⟩) ← first rest₂
  have hlt := length_lt_trans h₃ hlt
  if d = ',' then return (.more item, ⟨after, hlt⟩)
  else if d = ']' then return (.last (some item), ⟨after, hlt⟩)
  else none

def items (text : List Char) : Found (List Node) text :=
  (readToLast List.length (itemPart part) text).map fun r => (r.1.1 ++ r.1.2.toList, r.2)

def pair (text : List Char) : Found (List String × Node) text := do
  let (path, ⟨rest, h⟩) ← key text
  let (c, ⟨after, h₁⟩) ← first rest
  have hlt := length_lt_trans h₁ h
  if c = '=' then
    let (value, final) ← part (skipBlank after)
    return ((path, value), (final.within (length_skipBlank_le after)).within (length_le_of_lt hlt))
  else none

/-- A member of a table that is written as a value, with the comma behind it or the end
of the table. -/
def memberPart (text : List Char) :
    Found (Piece (List String × Node) (List String × Node)) text := do
  let (head, ⟨rest, h⟩) ← pair part text
  let (c, ⟨after, h₁⟩) ← mark rest
  have hlt := length_lt_trans h₁ h
  if c = ',' then return (.more head, ⟨after, hlt⟩)
  else if c = '\x7d' then return (.last head, ⟨after, hlt⟩)
  else none

def members (text : List Char) : Found (List (List String × Node)) text :=
  (readToLast List.length (memberPart part) text).map fun r => (r.1.1 ++ [r.1.2], r.2)

end Containers

/-- The most parts that a key may have is one less, and so is the most containers that
lie in one another. -/
def depthLimit : Nat := 80

def keysAllowed (pairs : List (List String × Node)) : Bool :=
  pairs.all fun pair => pair.1.length < depthLimit

def isScalarChar (c : Char) : Bool :=
  !(isBlank c || c = '\n' || c = '\r' || c = '#' || c = ',' || c = ']' || c = '\x7d')

/-- A value that is written without marks.  A blank may stand between a date and a
time of day. -/
def bareValue (text : List Char) : Found Node text :=
  let word := text.takeWhile isScalarChar
  let rest := text.dropWhile isScalarChar
  let time := (rest.drop 1).takeWhile isScalarChar
  let final :=
    if isDate word && rest.head? = some ' ' && isTimeWithOffset time then
      (rest.drop 1).dropWhile isScalarChar
    else rest
  if h : final.length < text.length then (scalar? word).map fun node => (node, ⟨final, h⟩)
  else none

def record (part : (text : List Char) → Found Node text) (text : List Char) :
    Found Node text :=
  match mark text with
  | some ('\x7d', rest) => some (.record [], rest)
  | _ => do
      let (pairs, ⟨rest, h⟩) ← members part text
      if !keysAllowed pairs then none
      let inner ← Members.assignAll? [] pairs
      return (.record inner, ⟨rest, h⟩)

/-- A value that may hold containers in one another less than `depth` deep. -/
def value (depth : Nat) (text : List Char) : Found Node text :=
  match depth, text with
  | 0, _ => none
  | _, [] => none
  | depth + 1, c :: rest =>
      if c = '"' ∨ c = '\'' then
        (string (c :: rest)).map fun r => (.string (String.ofList r.1), r.2)
      else if c = '[' then
        if depth = 0 then none
        else
          (items (value depth) rest).map fun r => (.array r.1, r.2.within (length_le_cons c rest))
      else if c = '\x7b' then
        if depth = 0 then none
        else
          (record (value depth) rest).map fun r => (r.1, r.2.within (length_le_cons c rest))
      else bareValue (c :: rest)

/-- The rest of a line behind what it holds: blanks, perhaps a comment, and the end of
the line or of the text. -/
def lineRest (text : List Char) : Option (Rest text) :=
  let rest := skipComment (skipBlank text)
  have hle : rest.length ≤ text.length :=
    Nat.le_trans (length_skipComment_le (skipBlank text)) (length_skipBlank_le text)
  match lineEnd? rest with
  | some ⟨after, h⟩ => some ⟨after, Nat.le_trans (Nat.le_of_lt h) hle⟩
  | none => if rest.isEmpty then some ⟨rest, hle⟩ else none

/-- A header of a table, or of one more of several tables. -/
inductive Header where
  | table (path : List String)
  | element (path : List String)

def headerPath (brackets : Nat) (text : List Char) : Found (List String) text := do
  let (path, ⟨rest, h⟩) ← key text
  if rest.take brackets = List.replicate brackets ']' ∧ path.length < depthLimit then
    have hle := length_drop_le brackets rest
    return (path, ⟨rest.drop brackets, length_lt_of_le_of_lt hle h⟩)
  else none

def header (text : List Char) : Found Header text :=
  match text with
  | '[' :: rest =>
      (headerPath 2 rest).map fun r => (.element r.1, r.2.within (length_le_cons '[' rest))
  | text => (headerPath 1 text).map fun r => (.table r.1, r.2)

/-- A header, if there is one, and the lines below it. -/
structure Section where
  header : Option Header
  pairs : List (List String × Node)

/-- The lines of a file, as sections; `pairs` are the lines of the first section that
have been read, the latest first. -/
def sections (current : Option Header) (pairs : List (List String × Node))
    (text : List Char) : Option (List Section) := do
  let ⟨start, _⟩ ← skipSpace text
  match first start with
  | none => return [⟨current, pairs.reverse⟩]
  | some ('[', ⟨rest, _⟩) =>
      let (next, ⟨rest₁, _⟩) ← header rest
      let ⟨rest₂, _⟩ ← lineRest rest₁
      return ⟨current, pairs.reverse⟩ :: (← sections (some next) [] rest₂)
  | some _ =>
      let (line, ⟨rest₁, _⟩) ← pair (value depthLimit) start
      if !keysAllowed [line] then none
      let ⟨rest₂, _⟩ ← lineRest rest₁
      sections current (line :: pairs) rest₂
termination_by text.length

def addSection? (members : Members) (part : Section) : Option Members :=
  match part.header with
  | none => members.assignAll? part.pairs
  | some (.table path) => members.open? path part.pairs
  | some (.element path) => members.append? path part.pairs

/-- Reads a settings file.  A byte order mark in front does not count. -/
def parse? (text : String) : Option Members := do
  let start := match text.toList with
    | '\uFEFF' :: rest => rest
    | text => text
  (← sections none [] start).foldlM addSection? []

end DocWeave.Toml
