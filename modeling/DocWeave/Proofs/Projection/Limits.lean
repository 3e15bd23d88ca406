/-
What the two caps take away.  A projection that reports nothing comes out the same under
greater caps; and where a leaf has more matches than the array cap, a greater cap gives it more
of them and takes none away.
-/
import DocWeave.Proofs.Path.Location
import DocWeave.Proofs.Projection.Filled

namespace DocWeave

/-- Neither a cut nor a part that lies too deep was reported. -/
structure Report.IsQuiet (r : Report) : Prop where
  not_truncated : r.truncated = false
  not_deep : r.maxDepthReached = false

theorem Report.isQuiet_append_iff (first second : Report) :
    (first ++ second).IsQuiet ↔ first.IsQuiet ∧ second.IsQuiet := by
  have hsplit : (first ++ second).truncated = (first.truncated || second.truncated) ∧
      (first ++ second).maxDepthReached = (first.maxDepthReached || second.maxDepthReached) :=
    ⟨rfl, rfl⟩
  constructor
  · rintro ⟨htruncated, hdeep⟩
    rw [hsplit.1, Bool.or_eq_false_iff] at htruncated
    rw [hsplit.2, Bool.or_eq_false_iff] at hdeep
    exact ⟨⟨htruncated.1, hdeep.1⟩, ⟨htruncated.2, hdeep.2⟩⟩
  · rintro ⟨hfirst, hsecond⟩
    refine ⟨?_, ?_⟩
    · rw [hsplit.1, hfirst.not_truncated, hsecond.not_truncated]
      rfl
    · rw [hsplit.2, hfirst.not_deep, hsecond.not_deep]
      rfl

/-- Neither cap is greater than the other one of its kind. -/
structure Caps.Within (caps caps' : Caps) : Prop where
  depth_le : caps.depth ≤ caps'.depth
  items_le : caps.items ≤ caps'.items

namespace Projection

/-! ### Caps that are not reached -/

/-- A leaf that is not cut stays as it is under a greater cap. -/
theorem ofMatches_of_isQuiet {cap cap' : Nat} (hcap : cap ≤ cap') {qualifier : String}
    {found : List Value} (h : (ofMatches cap qualifier found).report.IsQuiet) :
    ofMatches cap' qualifier found = ofMatches cap qualifier found := by
  match found with
  | [] => rfl
  | [only] => rfl
  | first :: second :: rest =>
      simp only [ofMatches] at h ⊢
      by_cases hlength : (first :: second :: rest).length ≤ cap
      · rw [if_pos hlength, if_pos (Nat.le_trans hlength hcap)]
      · rw [if_neg hlength] at h
        exact absurd h.not_truncated Bool.true_eq_false.mp

theorem leaf_of_isQuiet {cap cap' : Nat} (hcap : cap ≤ cap') {doc : Value}
    {qualifier path : String} (h : (leaf cap doc qualifier path).report.IsQuiet) :
    leaf cap' doc qualifier path = leaf cap doc qualifier path := by
  rw [leaf_eq_ofMatches] at h ⊢
  rw [leaf_eq_ofMatches, ofMatches_of_isQuiet hcap h]

mutual

/-- A part of which nothing was reported comes out the same under greater caps, with its note
and its report. -/
theorem shape_of_isQuiet {caps caps' : Caps} (hcaps : caps.Within caps') (doc : Value)
    (depth : Nat) (qualifier : String) (template : Value)
    (h : (shape caps doc depth qualifier template).report.IsQuiet) :
    shape caps' doc depth qualifier template = shape caps doc depth qualifier template := by
  by_cases hdepth : caps.depth < depth
  · rw [shape_of_deep hdepth] at h
    exact absurd h.not_deep.symm Bool.false_ne_true
  · have hdepth' : ¬ caps'.depth < depth :=
      Nat.not_lt.2 (Nat.le_trans (Nat.not_lt.1 hdepth) hcaps.depth_le)
    match template with
    | .string path =>
        simp only [shape, if_neg hdepth, if_neg hdepth'] at h ⊢
        exact leaf_of_isQuiet hcaps.items_le h
    | .array items =>
        simp only [shape, if_neg hdepth, if_neg hdepth'] at h ⊢
        rw [shapeItems_of_isQuiet hcaps doc (depth + 1) 0 items h]
    | .object members =>
        simp only [shape, if_neg hdepth, if_neg hdepth'] at h ⊢
        rw [shapeMembers_of_isQuiet hcaps doc (depth + 1) members h]
    | .null | .bool _ | .number _ => simp only [shape, if_neg hdepth, if_neg hdepth']

theorem shapeItems_of_isQuiet {caps caps' : Caps} (hcaps : caps.Within caps') (doc : Value)
    (depth place : Nat) : (items : List Value) →
      (shapeItems caps doc depth place items).report.IsQuiet →
      shapeItems caps' doc depth place items = shapeItems caps doc depth place items
  | [], _ => rfl
  | item :: rest, h => by
      rw [shapeItems] at h
      obtain ⟨hitem, hrest⟩ := (Report.isQuiet_append_iff _ _).1 h
      rw [shapeItems, shapeItems, shape_of_isQuiet hcaps doc depth _ item hitem,
        shapeItems_of_isQuiet hcaps doc depth (place + 1) rest hrest]

theorem shapeMembers_of_isQuiet {caps caps' : Caps} (hcaps : caps.Within caps') (doc : Value)
    (depth : Nat) : (members : List (String × Value)) →
      (shapeMembers caps doc depth members).report.IsQuiet →
      shapeMembers caps' doc depth members = shapeMembers caps doc depth members
  | [], _ => rfl
  | (key, value) :: rest, h => by
      rw [shapeMembers] at h
      obtain ⟨hvalue, hrest⟩ := (Report.isQuiet_append_iff _ _).1 h
      rw [shapeMembers, shapeMembers, shape_of_isQuiet hcaps doc depth key value hvalue,
        shapeMembers_of_isQuiet hcaps doc depth rest hrest]

end

theorem project_of_isQuiet {caps caps' : Caps} (hcaps : caps.Within caps') {template doc : Value}
    (h : (project caps template doc).report.IsQuiet) :
    project caps' template doc = project caps template doc := by
  have hshape := shape_of_isQuiet hcaps doc 0 rootQualifier template h
  rw [project, project, hshape]

/-! ### Leaves under two array caps -/

/-- A result holds no more than another one: they are the same, or both are lists and the first
is the beginning of the second. -/
inductive NoMoreThan : Option Value → Option Value → Prop
  | same (result : Option Value) : NoMoreThan result result
  | beginning {kept all : List Value} (h : kept <+: all) :
      NoMoreThan (some (.array kept)) (some (.array all))

theorem noMoreThan_leafValue {cap cap' : Nat} (hcap : cap ≤ cap') (found : List Value) :
    NoMoreThan (some (leafValue cap found)) (some (leafValue cap' found)) := by
  match found with
  | [] => exact .same _
  | [only] => exact .same _
  | first :: second :: rest =>
      simp only [leafValue]
      split
      · split
        · exact .beginning (List.take_prefix_take_left hcap)
        · exact .beginning (List.take_prefix cap _)
      · rw [if_neg (by omega)]
        exact .same _

/-! ### What stands at a location -/

theorem find?_filledMembers (caps : Caps) (doc : Value) (depth : Nat) (key : String)
    (members : Entries Value) :
    Entries.find? key (filledMembers caps doc depth members) =
      (Entries.find? key members).map (filled caps doc depth) := by
  induction members with
  | nil => rfl
  | cons member rest ih =>
      rw [filledMembers, Entries.find?, Entries.find?]
      split
      · rfl
      · exact ih

theorem getElem?_filledItems (caps : Caps) (doc : Value) (depth position : Nat)
    (items : List Value) :
    (filledItems caps doc depth items)[position]? =
      items[position]?.map (filled caps doc depth) := by
  induction items generalizing position with
  | nil => rfl
  | cons item rest ih =>
      cases position with
      | zero => rfl
      | succ position => exact ih position

/-- What stands in a template at a place is filled in the same place. -/
theorem in?_filled {caps : Caps} {depth : Nat} (hdepth : ¬ caps.depth < depth) (doc : Value)
    {template inner : Value} {place : Place} (h : place.in? template = some inner) :
    place.in? (filled caps doc depth template) = some (filled caps doc (depth + 1) inner) := by
  cases template with
  | array items =>
      rw [filled, if_neg hdepth]
      cases place with
      | key name => cases h
      | item position =>
          have hitem : items[position]? = some inner := h
          change (filledItems caps doc (depth + 1) items)[position]? = _
          rw [getElem?_filledItems, hitem, Option.map_some]
  | object members =>
      rw [filled, if_neg hdepth]
      cases place with
      | key name =>
          have hmember : Entries.find? name members = some inner := h
          change Entries.find? name (filledMembers caps doc (depth + 1) members ++ _) = _
          rw [Entries.find?_append, find?_filledMembers, hmember, Option.map_some, Option.some_or]
      | item position => cases h
  | _ => cases place <;> cases h

/-- A location of a template that is not too deep is filled on its own. -/
theorem at?_filled {caps : Caps} {depth : Nat} (hdepth : depth ≤ caps.depth + 1) (doc : Value)
    {template inner : Value} {location : Location} (h : template.at? location = some inner) :
    (filled caps doc depth template).at? location =
      if depth + location.length ≤ caps.depth + 1 then
        some (filled caps doc (depth + location.length) inner)
      else none := by
  induction location generalizing depth template with
  | nil =>
      cases h
      rw [List.length_nil, Nat.add_zero, if_pos hdepth]
      rfl
  | cons place rest ih =>
      obtain ⟨child, hchild, hinner⟩ := Option.bind_eq_some_iff.1 h
      have hlength : depth + (place :: rest).length = depth + 1 + rest.length := by
        rw [List.length_cons]
        omega
      rw [hlength]
      by_cases hdeep : caps.depth < depth
      · rw [filled_of_deep hdeep, if_neg (by omega)]
        cases place <;> rfl
      · rw [Value.at?, in?_filled hdeep doc hchild]
        exact ih (by omega) hinner

/-- A greater array cap takes nothing away from a leaf. -/
theorem noMoreThan_at?_filled {depth items items' : Nat} (hitems : items ≤ items') (doc : Value)
    {template : Value} {location : Location} {path : String}
    (h : template.at? location = some (.string path)) :
    NoMoreThan ((filled ⟨depth, items⟩ doc 0 template).at? location)
      ((filled ⟨depth, items'⟩ doc 0 template).at? location) := by
  rw [at?_filled (Nat.zero_le _) doc h, at?_filled (Nat.zero_le _) doc h]
  dsimp only
  split
  · rw [filled, filled]
    dsimp only
    split
    · exact .same _
    · exact noMoreThan_leafValue hitems _
  · exact .same none

/-! ### Projections under greater caps -/

/-- A projection that reports nothing comes out the same, with its report, under caps that are
nowhere smaller.  Whatever it reports, a greater array cap alone takes nothing away from any
leaf; and a leaf that is not too deep has a result. -/
theorem project_under_greater_caps (caps : Caps) (template doc : Value)
    (hfree : template.AvoidsKey Note.key) :
    (∀ caps', caps.Within caps' → (project caps template doc).report.IsQuiet →
      project caps' template doc = project caps template doc) ∧
    ∀ items', caps.items ≤ items' → ∀ location path,
      template.at? location = some (.string path) →
        let result := (project caps template doc).value.at? location
        let result' := (project { caps with items := items' } template doc).value.at? location
        (location.length ≤ caps.depth → result.isSome) ∧ NoMoreThan result result' := by
  refine ⟨fun caps' hcaps h => project_of_isQuiet hcaps h, ?_⟩
  intro items' hitems location path hleaf
  dsimp only
  rw [project_value_eq_filled caps template doc hfree,
    project_value_eq_filled { caps with items := items' } template doc hfree]
  refine ⟨fun hlength => ?_, noMoreThan_at?_filled hitems doc hleaf⟩
  rw [at?_filled (Nat.zero_le _) doc hleaf, if_pos (by omega)]
  rfl

/-- As many matches as the cap and a leaf on the deepest level are no events.  Under a cap of
zero the list of matches is empty, while a single match stays. -/
theorem project_under_greater_caps_of_exact_counts :
    let doc : Value := .object [("x", .array [.bool true, .bool false, .null])]
    let template : Value := .object [("all", .string "$.x[*]"), ("in", .array [.string "$.x[0]"])]
    template.AvoidsKey Note.key ∧ (project ⟨2, 3⟩ template doc).report.IsQuiet ∧
      project ⟨9, 50⟩ template doc = project ⟨2, 3⟩ template doc ∧
      (project ⟨2, 0⟩ template doc).value = .object [("all", .array []),
        ("in", .array [.bool true]),
        ("__meta", .object [("truncated", .bool true), ("truncatedField", .string "all"),
          ("returnedItems", .number (.integer 0))])] ∧
      NoMoreThan ((project ⟨2, 0⟩ template doc).value.at? [.key "all"])
        ((project ⟨2, 3⟩ template doc).value.at? [.key "all"]) := by
  intro doc template
  have hfree : template.AvoidsKey Note.key := by decide
  have hquiet : (project ⟨2, 3⟩ template doc).report.IsQuiet := ⟨by cbv, by cbv⟩
  have hwithin : Caps.Within ⟨2, 3⟩ ⟨9, 50⟩ := ⟨by decide, by decide⟩
  obtain ⟨hsame, -⟩ := project_under_greater_caps ⟨2, 3⟩ template doc hfree
  obtain ⟨-, hleaves⟩ := project_under_greater_caps ⟨2, 0⟩ template doc hfree
  exact ⟨hfree, hquiet, hsame _ hwithin hquiet, by cbv,
    (hleaves 3 (by decide) [.key "all"] "$.x[*]" rfl).2⟩

end Projection

end DocWeave
