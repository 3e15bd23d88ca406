/-
The arguments of the command.  Options may stand anywhere in front of `--`; each may
be given once, and an option that needs a value takes it from its own argument or
from the next one.
-/
import DocWeave.Render

namespace DocWeave.Command

/-- Options that need a value. -/
inductive Setting where
  | template
  | request
  | config
  | depthCap
  | arrayCap
  | format
  | output
deriving Repr, DecidableEq

/-- Options without a value. -/
inductive Flag where
  | noSanitize
  | metadata
deriving Repr, DecidableEq

/-- What ends the reading of arguments at once: they are wrong, or they ask for
something other than a run. -/
inductive Stop where
  | usage
  | help
  | version
deriving Repr, DecidableEq

inductive Switch where
  | setting (s : Setting)
  | flag (f : Flag)
  | stop (s : Stop)

def Switch.ofLong? : String → Option Switch
  | "template" => some (.setting .template)
  | "request" => some (.setting .request)
  | "config" => some (.setting .config)
  | "depth-cap" => some (.setting .depthCap)
  | "array-cap" => some (.setting .arrayCap)
  | "format" => some (.setting .format)
  | "output" => some (.setting .output)
  | "no-sanitize" => some (.flag .noSanitize)
  | "metadata" => some (.flag .metadata)
  | "help" => some (.stop .help)
  | "version" => some (.stop .version)
  | _ => none

def Switch.ofShort? : Char → Option Switch
  | 't' => some (.setting .template)
  | 'c' => some (.setting .config)
  | 'f' => some (.setting .format)
  | 'o' => some (.setting .output)
  | 'h' => some (.stop .help)
  | 'V' => some (.stop .version)
  | _ => none

/-- What has been read of the arguments. -/
structure Draft where
  inputs : List String := []
  template : Option String := none
  request : Option String := none
  config : Option String := none
  depthCap : Option Nat := none
  arrayCap : Option Nat := none
  format : Option OutputFormat := none
  output : Option String := none
  noSanitize : Bool := false
  metadata : Bool := false

/-- A count of at most 64 bits: digits, perhaps behind a plus sign. -/
def count? (text : String) : Option Nat :=
  let digits := match text.toList with
    | '+' :: rest => rest
    | digits => digits
  if digits.isEmpty || !digits.all Char.isDigit then none
  else (some (Decimal.natOfDigits digits)).filter (· < 0x10000000000000000)

/-- A path, which is not empty. -/
def path? (text : String) : Option String :=
  if text.isEmpty then none else some text

/-- Fills in what has not been given before. -/
def once {α : Type} (before : Option α) (value : Option α) : Except Stop (Option α) :=
  match before, value with
  | none, some value => .ok (some value)
  | _, _ => .error .usage

namespace Draft

def set (draft : Draft) (value : String) : Setting → Except Stop Draft
  | .template => return { draft with template := ← once draft.template (path? value) }
  | .request => return { draft with request := ← once draft.request (path? value) }
  | .config => return { draft with config := ← once draft.config (path? value) }
  | .depthCap => return { draft with depthCap := ← once draft.depthCap (count? value) }
  | .arrayCap => return { draft with arrayCap := ← once draft.arrayCap (count? value) }
  | .format => return { draft with format := ← once draft.format (OutputFormat.ofName? value) }
  | .output => return { draft with output := ← once draft.output (path? value) }

def raise (draft : Draft) : Flag → Except Stop Draft
  | .noSanitize =>
      if draft.noSanitize then .error .usage else .ok { draft with noSanitize := true }
  | .metadata =>
      if draft.metadata then .error .usage else .ok { draft with metadata := true }

def addInput (draft : Draft) (input : String) : Draft :=
  { draft with inputs := draft.inputs ++ [input] }

end Draft

inductive Shape where
  | endOfOptions
  /-- An option under a long name, with what stands behind a sign of equality. -/
  | long (name : String) (value : Option String)
  /-- An option under a short name, with what stands behind it. -/
  | short (name : Char) (value : Option String)
  | plain

/-- What an argument looks like.  A lone hyphen is no option. -/
def Shape.of (argument : String) : Shape :=
  match argument.toList with
  | ['-', '-'] => .endOfOptions
  | '-' :: '-' :: rest =>
      .long (String.ofList (rest.takeWhile (· ≠ '=')))
        (match rest.dropWhile (· ≠ '=') with
          | _ :: value => some (String.ofList value)
          | [] => none)
  | ['-'] => .plain
  | '-' :: name :: rest =>
      .short name (match rest with
        | [] => none
        | '=' :: value => some (String.ofList value)
        | value => some (String.ofList value))
  | _ => .plain

/-- The option that an argument names, and the value in it. -/
def Shape.switch? : Shape → Option (Switch × Option String)
  | long name value => (Switch.ofLong? name).map (·, value)
  | short name value => (Switch.ofShort? name).map (·, value)
  | _ => none

/-- Reads arguments.  `awaiting` is an option whose value has to come next. -/
def read (draft : Draft) (awaiting : Option Setting) : List String → Except Stop Draft
  | [] => if awaiting.isSome then .error .usage else .ok draft
  | argument :: rest =>
      match awaiting, Shape.of argument with
      | some setting, .plain => do read (← draft.set argument setting) none rest
      | some _, _ => .error .usage
      | none, .plain => read (draft.addInput argument) none rest
      | none, .endOfOptions => .ok (rest.foldl Draft.addInput draft)
      | none, shape =>
          match shape.switch? with
          | none => .error .usage
          | some (.setting setting, some value) => do
              read (← draft.set value setting) none rest
          | some (.setting setting, none) => read draft (some setting) rest
          | some (.flag flag, none) => do read (← draft.raise flag) none rest
          | some (.stop stop, none) => .error stop
          | some (.stop stop, some _) =>
              match shape with
              | .short .. => .error stop
              | _ => .error .usage
          | some (.flag _, some _) => .error .usage

inductive Source where
  /-- A file with a whole request. -/
  | request (path : String)
  /-- Inputs, of which there is one at least, and a template if there is one. -/
  | inputs (arguments : List String) (template : Option String)
deriving Repr, DecidableEq

structure Options where
  source : Source
  config : Option String
  depthCap : Option Nat
  arrayCap : Option Nat
  sanitize : Bool
  format : OutputFormat
  output : Option String
  metadata : Bool

/-- The source of the documents.  A request stands for itself, and without one there
have to be inputs. -/
def Draft.source (draft : Draft) : Except Stop Source :=
  match draft.request with
  | some path =>
      if draft.inputs.isEmpty ∧ draft.template.isNone then .ok (.request path)
      else .error .usage
  | none =>
      if draft.inputs.isEmpty then .error .usage
      else .ok (.inputs draft.inputs draft.template)

def parse (arguments : List String) : Except Stop Options := do
  let draft ← read {} none arguments
  return {
    source := ← draft.source
    config := draft.config
    depthCap := draft.depthCap
    arrayCap := draft.arrayCap
    sanitize := !draft.noSanitize
    format := draft.format.getD .json
    output := draft.output
    metadata := draft.metadata }

end DocWeave.Command
