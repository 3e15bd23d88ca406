/-
Why a JSON text is not a request, beyond its syntax: something has another type
than the one expected there, or the fields of a record are not the right ones.
-/
import DocWeave.Format
import DocWeave.Json.Reader
import DocWeave.Json.Writer
import DocWeave.Text.Hidden

namespace DocWeave.Request

inductive Expected where
  | request
  | inputs
  | input
  | text
deriving DecidableEq

def Expected.phrase : Expected → String
  | request => "struct CombineRequest"
  | inputs => "a sequence"
  | input => "struct Input"
  | text => "a string"

inductive Found where
  | null
  | bool (b : Bool)
  | whole (n : Int)
  | real (x : Float)
  | text (s : String)
  | list
  | object
deriving DecidableEq

def Found.phrase : Found → String
  | null => "null"
  | bool b => "boolean `" ++ toString b ++ "`"
  | whole n => "integer `" ++ toString n ++ "`"
  | real x => "floating point `" ++ Json.numberLayout.text x ++ "`"
  | text s => "string " ++ inspect s
  | list => "sequence"
  | object => "map"

inductive Reason where
  | malformed (reason : Json.Reason)
  | wrongType (found : Found) (expected : Expected)
  | missingField (name : String)
  | duplicateField (name : String)
  /-- A record written as a list is too short. -/
  | tooShort (length : Nat) (record : Expected)
  | unknownFormat (tag : String)
deriving DecidableEq

def Reason.message : Reason → String
  | malformed reason => reason.message
  | wrongType found expected =>
      "invalid type: " ++ found.phrase ++ ", expected " ++ expected.phrase
  | missingField name => "missing field `" ++ name ++ "`"
  | duplicateField name => "duplicate field `" ++ name ++ "`"
  | tooShort length record =>
      "invalid length " ++ Nat.repr length ++ ", expected " ++ record.phrase ++
        " with 2 elements"
  | unknownFormat tag => Format.unknownMessage tag

end DocWeave.Request
