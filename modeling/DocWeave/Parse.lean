/-
Reading a text in any of the formats.
-/
import DocWeave.Config.Basic
import DocWeave.Csv
import DocWeave.Format
import DocWeave.Json.Reader
import DocWeave.Xml.Tree
import DocWeave.Yaml.Outline

namespace DocWeave

/-- Why a text could not be read in its format.  Tables are never refused. -/
inductive ParseError where
  /-- A fault in JSON text, and where it showed. -/
  | json (reason : Json.Reason) (position : Json.Position)
  | xml (flaw : Xml.Flaw)
  | yaml (line : Yaml.Outline.InvalidLine)
deriving DecidableEq

namespace ParseError

def format : ParseError → Format
  | json .. => .json
  | xml _ => .xml
  | yaml _ => .yaml

def reason : ParseError → String
  | json reason position => position.describe reason.message
  | xml flaw => flaw.message
  | yaml line => line.message

def message (e : ParseError) : String :=
  e.format.name ++ " parse error: " ++ e.reason

/-- Whether a more detailed error stands behind this one: a fault knows its
place. -/
def hasCause : ParseError → Bool
  | json .. => true
  | _ => false

end ParseError

def parseJson (text : String) : Except ParseError Value :=
  (Json.document text.toList).mapError fun fault =>
    .json fault.reason (fault.position text.toList)

def parse (config : Config) (format : Format) (text : String) : Except ParseError Value :=
  match format with
  | .json => parseJson text
  | .xml => (Xml.parse text).mapError .xml
  | .yaml => (Yaml.Outline.parse text).mapError .yaml
  | .csv => .ok (Csv.parse config.sanitizeCell text)

end DocWeave
