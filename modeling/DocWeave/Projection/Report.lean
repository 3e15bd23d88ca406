/-
What a projection had to leave out: leaves that were cut to the cap, and parts of
the template beyond the deepest level.
-/
import DocWeave.Json.Writer

namespace DocWeave

/-- What was left out in one projection. -/
structure Report where
  /-- Whether some leaf was cut. -/
  truncated : Bool
  /-- The qualifiers of the leaves that were cut, each once, in the order in which
  they came up. -/
  truncatedFields : List String
  /-- Whether part of the template lay too deep. -/
  maxDepthReached : Bool
deriving DecidableEq

namespace Report

def clean : Report := ⟨false, [], false⟩

def ofField (qualifier : String) : Report := ⟨true, [qualifier], false⟩

/-- Part of the template lay too deep. -/
def tooDeep : Report := ⟨false, [], true⟩

/-- Two reports one after the other; a field that is known is not repeated. -/
def append (first second : Report) : Report where
  truncated := first.truncated || second.truncated
  truncatedFields := first.truncatedFields ++
    second.truncatedFields.filter fun field => !first.truncatedFields.contains field
  maxDepthReached := first.maxDepthReached || second.maxDepthReached

instance : Append Report := ⟨append⟩

@[simp] theorem clean_append (r : Report) : clean ++ r = r := by
  change append clean r = r
  cases r
  simp [append, clean]

@[simp] theorem append_clean (r : Report) : r ++ clean = r := by
  change append r clean = r
  cases r
  simp [append, clean]

def toValue (r : Report) : Value :=
  .object [
    ("truncated", .bool r.truncated),
    ("truncatedFields", .array (r.truncatedFields.map .string)),
    ("maxDepthReached", .bool r.maxDepthReached)]

def text (r : Report) : String :=
  Json.compactText r.toValue

end Report

/-- What an object says about a leaf of its own that was cut. -/
structure Note where
  field : String
  returned : Nat
deriving DecidableEq

def Note.key : String := "__meta"

def Note.toValue (note : Note) : Value :=
  .object [
    ("truncated", .bool true),
    ("truncatedField", .string note.field),
    ("returnedItems", .ofCount note.returned)]

end DocWeave
