/-
Requests and responses as documents, in the form in which they travel.
-/
import DocWeave.Combine
import DocWeave.Json.Writer

namespace DocWeave

/-- An input as a document; its format has the canonical tag. -/
def Input.toValue (input : Input) : Value :=
  .object [("type", .string input.format.name), ("data", .string input.data)]

/-- A request as a document.  A template that is missing is left out. -/
def Request.toValue (request : Request) : Value :=
  .object (("inputs", .array (request.inputs.map Input.toValue)) ::
    match request.template with
    | some template => [("output_format", template)]
    | none => [])

def Request.text (request : Request) : String :=
  Json.compactText request.toValue

/-- A response as a document.  Without a template there is no report. -/
def Response.toValue (response : Response) : Value :=
  .object (("result", response.result) ::
    match response.report with
    | some report => [("metadata", report.toValue)]
    | none => [])

def Response.text (response : Response) : String :=
  Json.compactText response.toValue

end DocWeave
