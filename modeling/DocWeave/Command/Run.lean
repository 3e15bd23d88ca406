/-
A run of the command: settings, inputs and template are loaded, the inputs are
combined, and the outcome is printed or saved.
-/
import DocWeave.Command.Arguments
import DocWeave.Files.Load
import DocWeave.Files.Save

namespace DocWeave.Command

open Files (FileAccess DiskError Bytes Compressor TemplateReader)

inductive RunError where
  | config (cause : Files.ConfigError)
  | load (cause : Files.LoadError)
  | inputUnreadable (cause : DiskError)
  | inputUndecodable (cause : Files.DecodeError)
  | inputWithoutFormat
  | inputTwice
  | combine (cause : CombineError)
  | save (path : String) (cause : Files.SaveError)
deriving DecidableEq

/-- What is said of a failure, the outermost message first. -/
def RunError.chain : RunError → List String
  | config cause => [cause.message]
  | load cause => cause.chain
  | inputUnreadable cause => ["Failed to read from stdin", cause.message]
  | inputUndecodable cause => cause.chain
  | inputWithoutFormat => ["Reading from stdin requires a format, e.g. json:-"]
  | inputTwice => ["stdin can only be used for one input"]
  | combine cause =>
      cause.message :: match cause with
        | .unreadable _ error =>
            error.message :: if error.hasCause then [error.reason] else []
        | _ => []
  | save path cause => ("Failed to write " ++ path) :: cause.chain

/-- A failure as it is printed: the outermost message, and below it the causes, which
are numbered if there are several. -/
def RunError.report (e : RunError) : String :=
  match e.chain with
  | [] => "Error: \n"
  | [outer] => "Error: " ++ outer ++ "\n"
  | [outer, cause] => "Error: " ++ outer ++ "\n\nCaused by:\n    " ++ cause ++ "\n"
  | outer :: causes =>
      "Error: " ++ outer ++ "\n\nCaused by:\n" ++
        String.join (causes.zipIdx.map fun entry =>
          "    " ++ Nat.repr entry.2 ++ ": " ++ entry.1 ++ "\n")

/-- What a run leaves behind, besides files. -/
structure Outcome where
  code : UInt8
  output : String
  messages : String
deriving Repr, DecidableEq

def versionLine : String := "unifio 0.1.0\n"

def textOfLines (each : List String) : String :=
  String.join (each.map (· ++ "\n"))

def helpText : String :=
  textOfLines [
    "Merge structured documents and reshape them with JSONPath templates",
    "",
    "Usage: unifio [OPTIONS] [INPUTS]...",
    "",
    "Arguments:",
    "  [INPUTS]...  Input documents, merged in order. Use FORMAT:PATH to force a format; " ++
      "`-` reads stdin",
    "",
    "Options:",
    "  -t, --template <TEMPLATE>    JSON or YAML template whose string leaves are JSONPath " ++
      "expressions",
    "      --request <REQUEST>      Read a complete request (\x7b\"inputs\": [...], " ++
      "\"output_format\": \x7b...\x7d\x7d) from a JSON file",
    "  -c, --config <CONFIG>        Config file (default: ~/.config/unifio/config.toml)",
    "      --depth-cap <DEPTH_CAP>  Deepest template level evaluated",
    "      --array-cap <ARRAY_CAP>  Most values a single template leaf may return",
    "      --no-sanitize            Keep CSV cells that look like spreadsheet formulas " ++
      "unchanged",
    "  -f, --format <FORMAT>        Output serialization [default: json] [possible values: " ++
      "json, pretty, yaml]",
    "  -o, --output <OUTPUT>        Write the result to a file instead of stdout (`.gz` " ++
      "compresses)",
    "      --metadata               Print projection metadata as JSON to stderr",
    "  -h, --help                   Print help",
    "  -V, --version                Print version"]

def usageText : String :=
  textOfLines [
    "error: invalid arguments",
    "",
    "Usage: unifio [OPTIONS] [INPUTS]...",
    "",
    "For more information, try '--help'."]

def Stop.outcome : Stop → Outcome
  | usage => ⟨2, "", usageText⟩
  | help => ⟨0, helpText, ""⟩
  | version => ⟨0, versionLine, ""⟩

/-- Settings after the options that go before them. -/
def Options.override (options : Options) (config : Config) : Config :=
  { config with
    depthCap := options.depthCap.getD config.depthCap
    arrayCap := options.arrayCap.getD config.arrayCap
    sanitizeCsv := options.sanitize && config.sanitizeCsv }

/-- The surroundings of a run: its home directory, and what comes in on its standard
input. -/
structure Surroundings (m : Type → Type) where
  home : String
  standardInput : m (Except DiskError Bytes)

variable {m : Type → Type} [Monad m] [FileAccess m]

def liftLoad {α ε : Type} (wrap : ε → RunError) (action : m (Except ε α)) :
    ExceptT RunError m α :=
  ExceptT.mk do return (← action).mapError wrap

def runConfig (surroundings : Surroundings m) (options : Options) :
    ExceptT RunError m Config := do
  let config ← match options.config with
    | some path => liftLoad .config (Files.loadConfig path)
    | none => ExceptT.lift (Files.loadUserConfig surroundings.home)
  return options.override config

def readStandardInput (surroundings : Surroundings m) : ExceptT RunError m String := do
  let bytes ← liftLoad .inputUnreadable surroundings.standardInput
  liftLoad (m := m) .inputUndecodable (pure (Files.decode bytes))

/-- The inputs of a run, in order.  Of these, one can be the standard input. -/
def runInputs (surroundings : Surroundings m) (taken : Bool) :
    List String → ExceptT RunError m (List Input)
  | [] => return []
  | argument :: rest => do
      let (format, path) := Files.splitFormat argument
      if path = "-" then
        match format with
        | none => throw .inputWithoutFormat
        | some format =>
            if taken then throw .inputTwice
            let text ← readStandardInput surroundings
            return ⟨format, text⟩ :: (← runInputs surroundings true rest)
      else
        let input ← liftLoad .load (Files.loadInput path format)
        return input :: (← runInputs surroundings taken rest)

def runRequest [TemplateReader] (surroundings : Surroundings m) :
    Source → ExceptT RunError m Request
  | .request path => liftLoad .load (Files.loadRequest path)
  | .inputs arguments template => do
      let inputs ← runInputs surroundings false arguments
      match template with
      | none => return ⟨inputs, none⟩
      | some path => return ⟨inputs, some (← liftLoad .load (Files.loadTemplate path))⟩

def runResponse [TemplateReader] (surroundings : Surroundings m) (options : Options) :
    ExceptT RunError m Response := do
  let config ← runConfig surroundings options
  let request ← runRequest surroundings options.source
  liftLoad (m := m) .combine (pure (combine config request))

def reportLine (options : Options) (response : Response) : String :=
  match options.metadata, response.report with
  | true, some report => report.text ++ "\n"
  | _, _ => ""

def run [TemplateReader] [Compressor] (surroundings : Surroundings m) (options : Options) :
    m Outcome := do
  match ← (runResponse surroundings options).run with
  | .error e => return ⟨1, "", e.report⟩
  | .ok response =>
      let messages := reportLine options response
      let rendered := render options.format response.result
      match options.output with
      | none => return ⟨0, rendered, messages⟩
      | some path =>
          match ← Files.save path rendered with
          | .ok () => return ⟨0, "", messages⟩
          | .error e => return ⟨1, "", messages ++ (RunError.save path e).report⟩

def execute [TemplateReader] [Compressor] (surroundings : Surroundings m)
    (arguments : List String) : m Outcome :=
  match parse arguments with
  | .ok options => run surroundings options
  | .error stop => return stop.outcome

end DocWeave.Command
