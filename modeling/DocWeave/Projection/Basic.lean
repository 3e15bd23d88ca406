/-
Shaping a document after a template.  A string in a template is a path, and its
matches take its place; everything else stays as it is.  Two caps bound the
work: levels beyond the depth cap become null, and a leaf with more matches
than the array cap is cut.
-/
import DocWeave.Config.Basic
import DocWeave.Path.Select
import DocWeave.Projection.Report

namespace DocWeave

structure Caps where
  depth : Nat
  items : Nat
deriving DecidableEq

def Config.caps (config : Config) : Caps := ⟨config.depthCap, config.arrayCap⟩

/-- A part of the output, the note it leaves to the object around it, and the
report on it. -/
structure Shaped (α : Type) where
  output : α
  note : Option Note
  report : Report

namespace Projection

/-- The qualifier of a template that stands in no container. -/
def rootQualifier : String := "root"

def plain {α : Type} (output : α) : Shaped α := ⟨output, none, .clean⟩

/-- The matches of a leaf: none is null, a single one stands for itself, and the
list of several is cut to the cap. -/
def ofMatches (cap : Nat) (qualifier : String) : List Value → Shaped Value
  | [] => plain .null
  | [found] => plain found
  | found =>
      if found.length ≤ cap then plain (.array found)
      else
        let kept := found.take cap
        ⟨.array kept, some ⟨qualifier, kept.length⟩, .ofField qualifier⟩

/-- A leaf with the text of a path.  A text that is no path counts as one without
matches. -/
def leaf (cap : Nat) (doc : Value) (qualifier path : String) : Shaped Value :=
  match Path.evaluate path doc with
  | .ok found => ofMatches cap qualifier found
  | .error _ => plain .null

def annotate (note : Option Note) (members : Entries Value) : Entries Value :=
  match note with
  | some note => Entries.insert Note.key note.toValue members
  | none => members

mutual

/-- Shapes one node of the template at a depth.  Its qualifier is the key or the
place it has in the container around it. -/
def shape (caps : Caps) (doc : Value) (depth : Nat) (qualifier : String)
    (template : Value) : Shaped Value :=
  if caps.depth < depth then ⟨.null, none, .tooDeep⟩
  else match template with
    | .string path => leaf caps.items doc qualifier path
    | .array items =>
        let shaped := shapeItems caps doc (depth + 1) 0 items
        -- a list has no place for a note
        ⟨.array shaped.output, none, shaped.report⟩
    | .object members =>
        let shaped := shapeMembers caps doc (depth + 1) members
        ⟨.object (annotate shaped.note shaped.output), none, shaped.report⟩
    | scalar => plain scalar

def shapeItems (caps : Caps) (doc : Value) (depth place : Nat) :
    List Value → Shaped (List Value)
  | [] => plain []
  | item :: rest =>
      let first := shape caps doc depth (Nat.repr place) item
      let others := shapeItems caps doc depth (place + 1) rest
      ⟨first.output :: others.output, others.note <|> first.note,
        first.report ++ others.report⟩

/-- Shapes the members of an object, which are qualified by their keys.  The last
note of a member is the one that counts. -/
def shapeMembers (caps : Caps) (doc : Value) (depth : Nat) :
    List (String × Value) → Shaped (Entries Value)
  | [] => plain []
  | (key, value) :: rest =>
      let first := shape caps doc depth key value
      let others := shapeMembers caps doc depth rest
      ⟨(key, first.output) :: others.output, others.note <|> first.note,
        first.report ++ others.report⟩

end

end Projection

structure Projection where
  value : Value
  report : Report

/-- Shapes a document after a template; this never fails. -/
def project (caps : Caps) (template doc : Value) : Projection :=
  let shaped := Projection.shape caps doc 0 Projection.rootQualifier template
  ⟨shaped.output, shaped.report⟩

end DocWeave
