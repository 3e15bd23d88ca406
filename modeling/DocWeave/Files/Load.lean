/-
Loading from files: inputs, templates, requests and settings.  Compressed files are
told by their first bytes, whatever their names are.
-/
import DocWeave.Config.Reader
import DocWeave.Files.Access
import DocWeave.Gzip.Member
import DocWeave.Request.Reader
import DocWeave.Yaml.Block

namespace DocWeave.Files

inductive DecodeError where
  | text (fault : Utf8.Fault)
  | compressed (fault : Gzip.Fault)
deriving Repr, DecidableEq

def DecodeError.chain : DecodeError → List String
  | text fault => ["Input is not valid UTF-8", fault.message]
  | compressed fault =>
      ["Failed to decompress gzip data - input may be corrupted", fault.message]

/-- The text that bytes stand for, after decompression if they are compressed. -/
def decode (bytes : Bytes) : Except DecodeError String :=
  if Gzip.isMarked bytes then (Gzip.text bytes).mapError .compressed
  else (Utf8.decode bytes).mapError .text

inductive LoadError where
  | noFormat (path : String)
  | unreadable (path : String) (cause : DiskError)
  | undecodable (path : String) (cause : DecodeError)
  | jsonTemplate (cause : ParseError)
  | yamlTemplate (cause : String)
  | request (reason : String)
deriving DecidableEq

def LoadError.chain : LoadError → List String
  | noFormat path => ["Cannot determine the format of " ++ path ++
      "; prefix it with json:, xml:, yaml: or csv:"]
  | unreadable path cause => ["Failed to read " ++ path, cause.message]
  | undecodable path cause => ("Failed to decode " ++ path) :: cause.chain
  | jsonTemplate cause => ["Failed to parse JSON template", cause.reason]
  | yamlTemplate cause => ["Failed to parse YAML template", cause]
  | request reason => ["Failed to parse combine request", reason]

inductive ConfigError where
  | unreadable (path : String)
  | invalid (path : String)
deriving Repr, DecidableEq

def ConfigError.message : ConfigError → String
  | unreadable path => "Failed to read config file " ++ path
  | invalid path => "Failed to parse config file " ++ path

/-- What reads templates in YAML.  It may fail, and tells why. -/
class TemplateReader where
  readYaml : String → Except String Value

/-- The reader of the command, which takes no anchors, aliases, tags and directives. -/
instance : TemplateReader where
  readYaml text := (Yaml.read? text).elim (.error "not a document that can be read") .ok

/-- Reads a template; the path tells whether it is one in YAML. -/
def readTemplate [TemplateReader] (path text : String) : Except LoadError Value :=
  if formatOf? path = some .yaml then (TemplateReader.readYaml text).mapError .yamlTemplate
  else (parseJson text).mapError .jsonTemplate

/-- Reads settings from the bytes of a file, which are never compressed. -/
def readConfig (path : String) (bytes : Bytes) : Except ConfigError Config :=
  match Utf8.decode? bytes with
  | none => .error (.unreadable path)
  | some text =>
      match Config.ofToml? text with
      | some config => .ok config
      | none => .error (.invalid path)

variable {m : Type → Type} [Monad m] [FileAccess m]

def loadText (path : String) : m (Except LoadError String) := do
  match ← FileAccess.read path with
  | .error e => return .error (.unreadable path e)
  | .ok bytes => return (decode bytes).mapError (.undecodable path)

/-- Loads an input.  Unless a format is given, the path has to tell it. -/
def loadInput (path : String) (format : Option Format) : m (Except LoadError Input) := do
  match format.or (formatOf? path) with
  | none => return .error (.noFormat path)
  | some format => return (← loadText path).map (Input.mk format)

def loadTemplate [TemplateReader] (path : String) : m (Except LoadError Value) := do
  return (← loadText path).bind (readTemplate path)

def loadRequest (path : String) : m (Except LoadError Request) := do
  return (← loadText path).bind fun text => (Request.parse text).mapError .request

def loadConfig (path : String) : m (Except ConfigError Config) := do
  match ← FileAccess.read path with
  | .error _ => return .error (.unreadable path)
  | .ok bytes => return readConfig path bytes

def configPath (home : String) : String :=
  home ++ "/.config/unifio/config.toml"

/-- Loads the settings of a user, or the defaults if there are none that can be
read. -/
def loadUserConfig (home : String) : m Config := do
  match ← loadConfig (configPath home) with
  | .ok config => return config
  | .error _ => return {}

end DocWeave.Files
