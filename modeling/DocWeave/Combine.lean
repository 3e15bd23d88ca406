/-
Combining several inputs into one document: they are checked, read, merged in
order and, where the request has a template, shaped after it.
-/
import DocWeave.Parse
import DocWeave.Projection.Basic
import DocWeave.TextCheck
import DocWeave.Value.Merge

namespace DocWeave

structure Input where
  format : Format
  data : String
deriving DecidableEq

structure Request where
  inputs : List Input
  template : Option Value

/-- The combined document, and the report on its shaping if it was shaped. -/
structure Response where
  result : Value
  report : Option Report

inductive CombineError where
  | noInputs
  | templateNotObject
  | binaryInput (index : Nat)
  | unreadable (index : Nat) (error : ParseError)
deriving DecidableEq

def CombineError.message : CombineError → String
  | noInputs => "Invalid input: inputs must not be empty"
  | templateNotObject => "Invalid input: output_format must be an object"
  | binaryInput index =>
      "Invalid input: inputs[" ++ Nat.repr index ++ "] does not look like text"
  | unreadable index error =>
      "Failed to parse inputs[" ++ Nat.repr index ++ "] (" ++ error.format.name ++ "): " ++
        error.reason

namespace Combine

def firstBinary? (config : Config) (inputs : List Input) : Option Nat :=
  inputs.findIdx? fun input =>
    !TextCheck.isLikelyText input.data config.nonprintableThreshold

/-- What can be wrong with a request before any input is read. -/
def validate (config : Config) (request : Request) : Except CombineError Unit :=
  if request.inputs.isEmpty then .error .noInputs
  else if request.template.any fun template => template.kind ≠ .object then
    .error .templateNotObject
  else match firstBinary? config request.inputs with
    | some index => .error (.binaryInput index)
    | none => .ok ()

/-- Reads every input; the first failure counts. -/
def readAll (config : Config) (index : Nat) :
    List Input → Except CombineError (List Value)
  | [] => .ok []
  | input :: rest =>
      match parse config input.format input.data with
      | .error error => .error (.unreadable index error)
      | .ok doc => do return doc :: (← readAll config (index + 1) rest)

end Combine

def combine (config : Config) (request : Request) : Except CombineError Response := do
  Combine.validate config request
  let docs ← Combine.readAll config 0 request.inputs
  let merged := Value.mergeAll docs
  return match request.template with
    | none => ⟨merged, none⟩
    | some template =>
        let projection := project config.caps template merged
        ⟨projection.value, some projection.report⟩

end DocWeave
