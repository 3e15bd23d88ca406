/-
Documents as output: compact or indented JSON, or YAML.  Whatever the form, the
text ends with a line feed.
-/
import DocWeave.Json.Writer
import DocWeave.Yaml.Printer

namespace DocWeave

inductive OutputFormat where
  | json
  | pretty
  | yaml
deriving Repr, DecidableEq

namespace OutputFormat

def name : OutputFormat → String
  | json => "json"
  | pretty => "pretty"
  | yaml => "yaml"

def ofName? (text : String) : Option OutputFormat :=
  [json, pretty, yaml].find? fun format => format.name = text

end OutputFormat

/-- A text that ends with a line feed. -/
def withFinalNewline (text : List Char) : List Char :=
  if text.getLast? = some '\n' then text else text ++ ['\n']

def render (format : OutputFormat) (v : Value) : String :=
  String.ofList (withFinalNewline (match format with
    | .json => Json.compact v
    | .pretty => Json.pretty 0 v
    | .yaml => Yaml.document v))

end DocWeave
