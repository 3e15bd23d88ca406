/-
The formats that documents are read from.
-/

namespace DocWeave

inductive Format where
  | json
  | xml
  | yaml
  | csv
deriving Repr, DecidableEq

namespace Format

def name : Format → String
  | json => "json"
  | xml => "xml"
  | yaml => "yaml"
  | csv => "csv"

/-- The format that a tag or a file name extension stands for.  Letters of ASCII
count the same in either case, and `yml` is another tag for `yaml`. -/
def ofTag? (tag : String) : Option Format :=
  match tag.map Char.toLower with
  | "json" => some json
  | "xml" => some xml
  | "yaml" | "yml" => some yaml
  | "csv" => some csv
  | _ => none

def unknownMessage (tag : String) : String :=
  "Unsupported input type: " ++ tag

end Format

end DocWeave
