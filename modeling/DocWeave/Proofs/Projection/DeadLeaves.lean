/-
Leaves of a template that lead nowhere: their text is no path, or it is a path without a match
in the document.  Such a leaf does no harm to the rest of the template.  With null in its place
the projection is the same, with the notes and the report on the leaves around it.
-/
import DocWeave.Proofs.Path.Composition
import DocWeave.Proofs.Projection.Filled

namespace DocWeave.Projection

/-- A text leads nowhere in a document: it is no path, or it is a path without a match. -/
inductive LeadsNowhere (doc : Value) (text : String) : Prop
  | malformed (h : ∀ path, ¬ Path.Spelled path text.toList)
  | unmatched {path : Path} (h : Path.Spelled path text.toList) (hnone : path.select doc = [])

theorem leadsNowhere_iff (doc : Value) (text : String) :
    LeadsNowhere doc text ↔ matchesOf doc text = [] := by
  rw [matchesOf]
  cases hparse : Path.parse text with
  | error e =>
      rw [Path.evaluate, hparse]
      refine iff_of_true (.malformed fun path hpath => ?_) rfl
      rw [Path.parse_eq_ok_iff.2 hpath] at hparse
      cases hparse
  | ok path =>
      rw [Path.evaluate_of_parse hparse]
      have hspelled := Path.parse_eq_ok_iff.1 hparse
      constructor
      · rintro (hno | ⟨hother, hnone⟩)
        · exact absurd hspelled (hno path)
        · rw [Path.parse_eq_ok_iff.2 hother] at hparse
          cases hparse
          exact hnone
      · exact .unmatched hspelled

instance (doc : Value) (text : String) : Decidable (LeadsNowhere doc text) :=
  decidable_of_iff ((matchesOf doc text).isEmpty = true) <| by
    rw [List.isEmpty_iff, leadsNowhere_iff]

mutual

/-- A template with null in the place of every leaf that leads nowhere. -/
def cleared (doc : Value) : Value → Value
  | .string text => if LeadsNowhere doc text then .null else .string text
  | .array items => .array (clearedItems doc items)
  | .object members => .object (clearedMembers doc members)
  | scalar => scalar

def clearedItems (doc : Value) : List Value → List Value
  | [] => []
  | item :: rest => cleared doc item :: clearedItems doc rest

def clearedMembers (doc : Value) : List (String × Value) → Entries Value
  | [] => []
  | (key, value) :: rest => (key, cleared doc value) :: clearedMembers doc rest

end

/-- A leaf that leads nowhere is shaped as null is, without a note. -/
theorem leaf_of_leadsNowhere {doc : Value} {text : String} (h : LeadsNowhere doc text)
    (cap : Nat) (qualifier : String) : leaf cap doc qualifier text = plain .null := by
  rw [leaf_eq_ofMatches, (leadsNowhere_iff doc text).1 h]
  rfl

mutual

theorem shape_cleared (caps : Caps) (doc : Value) (depth : Nat) (qualifier : String)
    (template : Value) :
    shape caps doc depth qualifier (cleared doc template) =
      shape caps doc depth qualifier template := by
  by_cases hdepth : caps.depth < depth
  · rw [shape_of_deep hdepth, shape_of_deep hdepth]
  · match template with
    | .string text =>
        rw [cleared]
        split
        next hnowhere =>
          simp only [shape, if_neg hdepth, leaf_of_leadsNowhere hnowhere]
        next => rfl
    | .array items =>
        rw [cleared, shape, shape, shapeItems_cleared]
    | .object members =>
        rw [cleared, shape, shape, shapeMembers_cleared]
    | .null | .bool _ | .number _ => rfl

theorem shapeItems_cleared (caps : Caps) (doc : Value) (depth place : Nat) :
    (items : List Value) →
      shapeItems caps doc depth place (clearedItems doc items) =
        shapeItems caps doc depth place items
  | [] => rfl
  | item :: rest => by
      rw [clearedItems, shapeItems, shapeItems, shape_cleared, shapeItems_cleared]

theorem shapeMembers_cleared (caps : Caps) (doc : Value) (depth : Nat) :
    (members : List (String × Value)) →
      shapeMembers caps doc depth (clearedMembers doc members) =
        shapeMembers caps doc depth members
  | [] => rfl
  | (key, value) :: rest => by
      rw [clearedMembers, shapeMembers, shapeMembers, shape_cleared, shapeMembers_cleared]

end

/-- Leaves that lead nowhere may be null from the start: the output and the report stay the
same. -/
theorem project_cleared (caps : Caps) (template doc : Value) :
    project caps (cleared doc template) doc = project caps template doc := by
  rw [project, project, shape_cleared]

/-- A text that is no path and a path without a match, next to a leaf that is cut. -/
example :
    let doc : Value := .object [("a", .array [.null, .null])]
    let template : Value :=
      .object [("p", .string "$.a[*]"), ("q", .string "$.a["), ("r", .string "$.b")]
    cleared doc template = .object [("p", .string "$.a[*]"), ("q", .null), ("r", .null)] ∧
      (project ⟨1, 1⟩ template doc).report = ⟨true, ["p"], false⟩ := by
  cbv

end DocWeave.Projection
