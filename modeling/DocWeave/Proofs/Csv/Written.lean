/-
The ways of writing a table.  A field stands bare or between quotes, a line ends with a line
feed that may have a carriage return in front of it, and blank lines may stand anywhere.
-/
import DocWeave.Csv

namespace DocWeave.Csv

/-- A text with every quote written twice. -/
def doubled (field : List Char) : List Char :=
  field.flatMap fun c => if c = '"' then ['"', '"'] else [c]

/-- A field between quotes, or bare if it holds neither a comma nor a quote. -/
inductive WrittenField (field : String) : List Char → Prop
  | bare (h : ∀ c ∈ field.toList, c ≠ ',' ∧ c ≠ '"') : WrittenField field field.toList
  | quoted : WrittenField field ('"' :: (doubled field.toList ++ ['"']))

/-- Fields with commas between them.  There is no line without fields. -/
inductive WrittenLine : List String → List Char → Prop
  | last {field : String} {w : List Char} (h : WrittenField field w) : WrittenLine [field] w
  | more {field : String} {fields : List String} {w line : List Char}
      (h : WrittenField field w) (hline : WrittenLine fields line) :
      WrittenLine (field :: fields) (w ++ ',' :: line)

inductive LineEnd : List Char → Prop
  | feed : LineEnd ['\n']
  | returnFeed : LineEnd ['\r', '\n']

/-- The lines of a table, none of them blank, with blank lines between them.  The last line,
blank or not, may go without an end. -/
inductive WrittenTable : List (List String) → List Char → Prop
  | nil {blank : List Char} (hblank : isBlankText blank) (hfeed : '\n' ∉ blank) :
      WrittenTable [] blank
  | unended {fields : List String} {line : List Char} (hline : WrittenLine fields line)
      (hblank : ¬ isBlankText line) : WrittenTable [fields] line
  | blank {table : List (List String)} {blank lineEnd w : List Char}
      (hblank : isBlankText blank) (hfeed : '\n' ∉ blank) (hend : LineEnd lineEnd)
      (h : WrittenTable table w) : WrittenTable table (blank ++ (lineEnd ++ w))
  | line {fields : List String} {table : List (List String)} {line lineEnd w : List Char}
      (hline : WrittenLine fields line) (hblank : ¬ isBlankText line) (hend : LineEnd lineEnd)
      (h : WrittenTable table w) : WrittenTable (fields :: table) (line ++ (lineEnd ++ w))

/-- A text on one line without white space around it. -/
structure IsCell (field : String) : Prop where
  oneLine : '\n' ∉ field.toList
  trimmed : trim field.toList = field.toList

instance (field : String) : Decidable (IsCell field) :=
  decidable_of_iff ('\n' ∉ field.toList ∧ trim field.toList = field.toList)
    ⟨fun h => ⟨h.1, h.2⟩, fun h => ⟨h.oneLine, h.trimmed⟩⟩

end DocWeave.Csv
