/-
Projections of well-formed documents.  What a path finds is part of the document, and an
object keeps the keys of its template; the note that may be written beside them is one more
member.
-/
import DocWeave.Proofs.Parse.WellFormed
import DocWeave.Proofs.Path.Location
import DocWeave.Proofs.Projection.Filled

namespace DocWeave

/-! ### What a path finds -/

theorem mem_of_itemAt? {items : List Value} {i : Int64} {v : Value}
    (h : itemAt? items i = some v) : v ∈ items := by
  obtain ⟨-, hitem⟩ := Option.ite_none_left_eq_some.1 h
  exact List.mem_of_getElem? hitem

/-- A step leads to values directly inside the one it starts from. -/
theorem Step.mem_parts_of_mem_select {step : Step} {v w : Value} (h : w ∈ step.select v) :
    w ∈ v.parts := by
  unfold Step.select at h
  split at h
  next name _ =>
    have hget := Option.mem_toList.1 h
    cases v with
    | object members => exact List.mem_map_of_mem (f := Prod.snd) (Entries.mem_of_find? hget)
    | null | bool _ | number _ | string _ | array _ => cases hget
  next i items => exact mem_of_itemAt? (Option.mem_toList.1 h)
  next items => exact h
  next => cases h

/-- A condition that holds of everything inside a document holds of what a path finds. -/
theorem Path.everywhere_of_mem_select {p : Value → Prop} {path : Path} {root : Value}
    (hroot : root.Everywhere p) : ∀ v ∈ path.select root, v.Everywhere p := by
  induction path generalizing root with
  | nil => simpa using hroot
  | cons step rest ih =>
      rw [Path.select_cons]
      intro v hv
      obtain ⟨w, hw, hv⟩ := List.mem_flatMap.1 hv
      have hinside := ((Value.everywhere_iff root).1 hroot).2 w (Step.mem_parts_of_mem_select hw)
      exact ih hinside v hv

namespace Projection

theorem wellFormed_of_mem_matchesOf {doc : Value} (hdoc : doc.WellFormed) (path : String) :
    ∀ v ∈ matchesOf doc path, v.WellFormed := by
  unfold matchesOf
  split
  next found hfound =>
    obtain ⟨steps, -, rfl⟩ := exists_of_map_eq_ok hfound
    exact Path.everywhere_of_mem_select hdoc
  next => simp

theorem wellFormed_leafValue (cap : Nat) {found : List Value}
    (h : ∀ v ∈ found, v.WellFormed) : (leafValue cap found).WellFormed := by
  match found with
  | [] => exact Value.wellFormed_null
  | [only] => exact h only List.mem_cons_self
  | first :: second :: rest =>
      simp only [leafValue]
      split
      next =>
        rw [Value.wellFormed_array_iff]
        exact fun v hv => h v (List.mem_of_mem_take hv)
      next => exact (Value.wellFormed_array_iff _).2 h

theorem wellFormed_toValue (note : Note) : note.toValue.WellFormed := by
  rw [Note.toValue, Value.wellFormed_object_iff]
  constructor
  · simp [Entries.keys]
  · simp [Value.wellFormed_ofCount]

theorem wellFormed_annotate {members : Entries Value} (h : (Value.object members).WellFormed)
    (note : Option Note) : (Value.object (annotate note members)).WellFormed := by
  cases note with
  | none => exact h
  | some note => exact h.insert Note.key (wellFormed_toValue note)

/-- The members that are shaped keep their keys. -/
theorem keys_shapeMembers (caps : Caps) (doc : Value) (depth : Nat)
    (members : Entries Value) :
    Entries.keys (shapeMembers caps doc depth members).output = Entries.keys members := by
  induction members with
  | nil => rfl
  | cons member rest ih =>
      obtain ⟨key, value⟩ := member
      rw [shapeMembers, Entries.keys_cons, Entries.keys_cons, ih]

mutual

theorem wellFormed_shape (caps : Caps) {doc : Value} (hdoc : doc.WellFormed) (depth : Nat)
    (qualifier : String) :
    (template : Value) → template.WellFormed →
      (shape caps doc depth qualifier template).output.WellFormed
  | .string path, _ => by
      rw [shape]
      split
      next => exact Value.wellFormed_null
      next =>
        rw [leaf_eq_ofMatches, ofMatches_output]
        exact wellFormed_leafValue caps.items (wellFormed_of_mem_matchesOf hdoc path)
  | .array items, htemplate => by
      rw [shape]
      split
      next => exact Value.wellFormed_null
      next =>
        rw [Value.wellFormed_array_iff] at htemplate ⊢
        exact wellFormed_shapeItems caps hdoc (depth + 1) 0 items htemplate
  | .object members, htemplate => by
      rw [shape]
      split
      next => exact Value.wellFormed_null
      next =>
        obtain ⟨hnodup, hmembers⟩ := (Value.wellFormed_object_iff members).1 htemplate
        apply wellFormed_annotate
        rw [Value.wellFormed_object_iff, keys_shapeMembers]
        exact ⟨hnodup, wellFormed_shapeMembers caps hdoc (depth + 1) members hmembers⟩
  | .null, htemplate | .bool _, htemplate | .number _, htemplate => by
      simp only [shape]
      split
      next => exact Value.wellFormed_null
      next => exact htemplate

theorem wellFormed_shapeItems (caps : Caps) {doc : Value} (hdoc : doc.WellFormed)
    (depth place : Nat) :
    (items : List Value) → (∀ item ∈ items, item.WellFormed) →
      ∀ item ∈ (shapeItems caps doc depth place items).output, item.WellFormed
  | [], _ => by simp [shapeItems, plain]
  | item :: rest, hitems => by
      obtain ⟨hitem, hrest⟩ := List.forall_mem_cons.1 hitems
      rw [shapeItems, List.forall_mem_cons]
      exact ⟨wellFormed_shape caps hdoc depth _ item hitem,
        wellFormed_shapeItems caps hdoc depth (place + 1) rest hrest⟩

theorem wellFormed_shapeMembers (caps : Caps) {doc : Value} (hdoc : doc.WellFormed)
    (depth : Nat) :
    (members : List (String × Value)) → (∀ member ∈ members, member.2.WellFormed) →
      ∀ member ∈ (shapeMembers caps doc depth members).output, member.2.WellFormed
  | [], _ => by simp [shapeMembers, plain]
  | (key, value) :: rest, hmembers => by
      obtain ⟨hvalue, hrest⟩ := List.forall_mem_cons.1 hmembers
      rw [shapeMembers, List.forall_mem_cons]
      exact ⟨wellFormed_shape caps hdoc depth key value hvalue,
        wellFormed_shapeMembers caps hdoc depth rest hrest⟩

end

theorem wellFormed_project (caps : Caps) {template doc : Value}
    (htemplate : template.WellFormed) (hdoc : doc.WellFormed) :
    (project caps template doc).value.WellFormed :=
  wellFormed_shape caps hdoc 0 rootQualifier template htemplate

end Projection

end DocWeave
