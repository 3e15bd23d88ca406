/-
Tables of comma-separated fields.  The first line that is not blank holds the
headers; every later one becomes an object of its fields under those headers.  A
field may be quoted, and a doubled quote inside quotes stands for one.
-/
import DocWeave.Text.Basic
import DocWeave.Value.Basic

namespace DocWeave.Csv

def consField (c : Char) : List (List Char) → List (List Char)
  | [] => [[c]]
  | field :: rest => (c :: field) :: rest

/-- The fields of a line as they stand between the commas, without their quotes.
A comma inside quotes does not separate. -/
def rawFields (inQuotes : Bool) : List Char → List (List Char)
  | [] => [[]]
  | '"' :: rest =>
      if inQuotes then
        match rest with
        | '"' :: after => consField '"' (rawFields true after)
        | rest => rawFields false rest
      else rawFields true rest
  | c :: rest =>
      if c = ',' && !inQuotes then [] :: rawFields false rest
      else consField c (rawFields inQuotes rest)

/-- The fields of a line, without white space around them. -/
def fields (line : List Char) : List String :=
  (rawFields false line).map fun field => String.ofList (trim field)

/-- Each header with the field at its place; missing fields are empty, and fields
beyond the last header are left out. -/
def pairUp : List String → List String → List (String × String)
  | [], _ => []
  | header :: headers, [] => (header, "") :: pairUp headers []
  | header :: headers, field :: fields => (header, field) :: pairUp headers fields

/-- A row: every cell is passed through a function before it is stored.  Of equal
headers the first gives the place and the last the cell. -/
def row (cell : String → String) (headers fields : List String) : Value :=
  .object (Entries.ofPairs ((pairUp headers fields).map fun pair =>
    (pair.1, Value.string (cell pair.2))))

def rows (cell : String → String) : List (List Char) → List Value
  | [] => []
  | header :: lines => lines.map fun line => row cell (fields header) (fields line)

def rowsKey : String := "rows"

/-- Reads a table as a document; no text is refused. -/
def parse (cell : String → String) (text : String) : Value :=
  let contentLines := (lines text.toList).filter fun line => !isBlankText line
  .object [(rowsKey, .array (rows cell contentLines))]

end DocWeave.Csv
