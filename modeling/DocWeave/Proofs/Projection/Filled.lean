/-
What a projection puts in each place of a template.  The rule looks at one place and
its children only; the notes that the projection passes up from leaf to object do not
occur in it.
-/
import Mathlib
import DocWeave.Projection.Basic
import DocWeave.Proofs.Value.ObjectKeys

namespace DocWeave.Projection

/-! ### The rule, place by place -/

/-- The matches of a leaf.  A text that is no path has none. -/
def matchesOf (doc : Value) (path : String) : List Value :=
  match Path.evaluate path doc with
  | .ok found => found
  | .error _ => []

/-- What a leaf becomes: null without matches, its only match, the list of several, or
as many of them as the cap allows. -/
def leafValue (cap : Nat) : List Value → Value
  | [] => .null
  | [only] => only
  | several => if max 1 cap < several.length then .array (several.take cap) else .array several

def isCut (caps : Caps) (doc : Value) (depth : Nat) : Value → Bool
  | .string path => depth ≤ caps.depth && max 1 caps.items < (matchesOf doc path).length
  | _ => false

/-- The last entry of an object: present when a child of its own is cut, and naming the
last such child. -/
def sidecar (caps : Caps) (doc : Value) (depth : Nat) (members : Entries Value) :
    Entries Value :=
  match (members.filter fun member => isCut caps doc depth member.2).getLast? with
  | some (key, _) =>
      [("__meta", .object [
        ("truncated", .bool true),
        ("truncatedField", .string key),
        ("returnedItems", .ofCount caps.items)])]
  | none => []

mutual

/-- What stands in the place of a template node at a depth. -/
def filled (caps : Caps) (doc : Value) (depth : Nat) (template : Value) : Value :=
  if caps.depth < depth then .null
  else match template with
    | .string path => leafValue caps.items (matchesOf doc path)
    | .array items => .array (filledItems caps doc (depth + 1) items)
    | .object members =>
        .object (filledMembers caps doc (depth + 1) members ++
          sidecar caps doc (depth + 1) members)
    | scalar => scalar

def filledItems (caps : Caps) (doc : Value) (depth : Nat) : List Value → List Value
  | [] => []
  | item :: rest => filled caps doc depth item :: filledItems caps doc depth rest

def filledMembers (caps : Caps) (doc : Value) (depth : Nat) :
    List (String × Value) → Entries Value
  | [] => []
  | (key, value) :: rest =>
      (key, filled caps doc depth value) :: filledMembers caps doc depth rest

end

theorem filledMembers_eq_map (caps : Caps) (doc : Value) (depth : Nat)
    (members : Entries Value) :
    filledMembers caps doc depth members =
      members.map fun member => (member.1, filled caps doc depth member.2) := by
  induction members with
  | nil => rfl
  | cons member rest ih => rw [filledMembers, ih, List.map_cons]

theorem keys_filledMembers (caps : Caps) (doc : Value) (depth : Nat)
    (members : Entries Value) :
    Entries.keys (filledMembers caps doc depth members) = Entries.keys members := by
  rw [filledMembers_eq_map]
  simp [Entries.keys]

/-! ### Nodes beyond the deepest level -/

theorem shape_of_deep {caps : Caps} {depth : Nat} (h : caps.depth < depth) (doc : Value)
    (qualifier : String) (template : Value) :
    shape caps doc depth qualifier template = ⟨.null, none, .tooDeep⟩ := by
  cases template <;> simp [shape, h]

theorem filled_of_deep {caps : Caps} {depth : Nat} (h : caps.depth < depth) (doc : Value)
    (template : Value) : filled caps doc depth template = .null := by
  cases template <;> simp [filled, h]

/-! ### Leaves -/

theorem ofMatches_output (cap : Nat) (qualifier : String) (found : List Value) :
    (ofMatches cap qualifier found).output = leafValue cap found := by
  match found with
  | [] => rfl
  | [only] => rfl
  | first :: second :: rest =>
      simp only [ofMatches, leafValue, List.length_cons]
      by_cases h : rest.length + 1 + 1 ≤ cap
      · rw [if_pos h, if_neg (by omega)]
        rfl
      · rw [if_neg h, if_pos (by omega)]

/-- A leaf that is cut leaves a note with as many matches as the cap. -/
theorem ofMatches_note (cap : Nat) (qualifier : String) (found : List Value) :
    (ofMatches cap qualifier found).note =
      if max 1 cap < found.length then some ⟨qualifier, cap⟩ else none := by
  match found with
  | [] => simp [ofMatches, plain]
  | [only] =>
      rw [if_neg (by simp)]
      rfl
  | first :: second :: rest =>
      simp only [ofMatches, List.length_cons]
      by_cases h : rest.length + 1 + 1 ≤ cap
      · rw [if_pos h, if_neg (by omega)]
        rfl
      · rw [if_neg h, if_pos (by omega)]
        simp
        omega

theorem leaf_eq_ofMatches (cap : Nat) (doc : Value) (qualifier path : String) :
    leaf cap doc qualifier path = ofMatches cap qualifier (matchesOf doc path) := by
  unfold leaf matchesOf
  cases Path.evaluate path doc with
  | ok found => rfl
  | error e => rfl

/-! ### Notes -/

theorem isCut_of_deep {caps : Caps} {depth : Nat} (h : caps.depth < depth) (doc : Value)
    (template : Value) : isCut caps doc depth template = false := by
  cases template <;> simp [isCut, Nat.not_le_of_lt h]

/-- A node leaves a note exactly when it is a leaf that is cut. -/
theorem shape_note (caps : Caps) (doc : Value) (depth : Nat) (qualifier : String)
    (template : Value) :
    (shape caps doc depth qualifier template).note =
      if isCut caps doc depth template then some ⟨qualifier, caps.items⟩ else none := by
  by_cases hdepth : caps.depth < depth
  · rw [shape_of_deep hdepth, isCut_of_deep hdepth]
    rfl
  · cases template with
    | string path =>
        have hle : depth ≤ caps.depth := Nat.le_of_not_lt hdepth
        simp only [shape, if_neg hdepth, leaf_eq_ofMatches, ofMatches_note, isCut, hle,
          decide_true, Bool.true_and, decide_eq_true_eq]
    | _ => simp [shape, hdepth, isCut, plain]

/-- Of the notes of an object's members the last one counts. -/
theorem shapeMembers_note (caps : Caps) (doc : Value) (depth : Nat)
    (members : Entries Value) :
    (shapeMembers caps doc depth members).note =
      (members.filter fun member => isCut caps doc depth member.2).getLast?.map
        fun member => ⟨member.1, caps.items⟩ := by
  induction members with
  | nil => rfl
  | cons member rest ih =>
      obtain ⟨key, value⟩ := member
      rw [shapeMembers]
      simp only [ih, shape_note, List.filter_cons]
      by_cases hcut : isCut caps doc depth value = true
      · simp only [hcut, if_true, List.getLast?_cons]
        cases (rest.filter fun member => isCut caps doc depth member.2).getLast? <;> rfl
      · simp [hcut]

/-- An object without the reserved key gets its note as its last entry. -/
theorem annotate_shapeMembers_note (caps : Caps) (doc : Value) (depth : Nat)
    {members shaped : Entries Value} (hkeys : Entries.keys shaped = Entries.keys members)
    (hfree : Note.key ∉ Entries.keys members) :
    annotate (shapeMembers caps doc depth members).note shaped =
      shaped ++ sidecar caps doc depth members := by
  rw [shapeMembers_note, sidecar]
  cases (members.filter fun member => isCut caps doc depth member.2).getLast? with
  | none => simp [annotate]
  | some member =>
      rw [← hkeys] at hfree
      rw [Option.map_some, annotate, Entries.insert_of_not_mem hfree]
      rfl

/-! ### The whole template -/

mutual

theorem shape_output (caps : Caps) (doc : Value) (depth : Nat) (qualifier : String)
    (template : Value) (hfree : template.AvoidsKey Note.key) :
    (shape caps doc depth qualifier template).output = filled caps doc depth template := by
  by_cases hdepth : caps.depth < depth
  · rw [shape_of_deep hdepth, filled_of_deep hdepth]
  · match template with
    | .array items =>
        have hitems := (Value.objectKeys_array_iff items).1 hfree
        simp only [shape, filled, if_neg hdepth,
          shapeItems_output caps doc (depth + 1) 0 items hitems]
    | .object members =>
        obtain ⟨hkeys, hmembers⟩ := (Value.objectKeys_object_iff members).1 hfree
        simp only [shape, filled, if_neg hdepth,
          shapeMembers_output caps doc (depth + 1) members hmembers]
        rw [annotate_shapeMembers_note caps doc (depth + 1)
          (keys_filledMembers caps doc (depth + 1) members) hkeys]
    | .string path =>
        simp only [shape, filled, if_neg hdepth, leaf_eq_ofMatches, ofMatches_output]
    | .null | .bool _ | .number _ =>
        simp [shape, filled, hdepth, plain]

theorem shapeItems_output (caps : Caps) (doc : Value) (depth place : Nat) :
    (items : List Value) → (∀ item ∈ items, item.AvoidsKey Note.key) →
      (shapeItems caps doc depth place items).output = filledItems caps doc depth items
  | [], _ => rfl
  | item :: rest, h => by
      obtain ⟨hitem, hrest⟩ := List.forall_mem_cons.1 h
      rw [shapeItems, filledItems]
      simp only [shape_output caps doc depth _ item hitem,
        shapeItems_output caps doc depth (place + 1) rest hrest]

theorem shapeMembers_output (caps : Caps) (doc : Value) (depth : Nat) :
    (members : List (String × Value)) →
      (∀ member ∈ members, member.2.AvoidsKey Note.key) →
      (shapeMembers caps doc depth members).output = filledMembers caps doc depth members
  | [], _ => rfl
  | (key, value) :: rest, h => by
      obtain ⟨hvalue, hrest⟩ := List.forall_mem_cons.1 h
      rw [shapeMembers, filledMembers]
      simp only [shape_output caps doc depth key value hvalue,
        shapeMembers_output caps doc depth rest hrest]

end

/-- A projection fills a template place by place. -/
theorem project_value_eq_filled (caps : Caps) (template doc : Value)
    (hfree : template.AvoidsKey Note.key) :
    (project caps template doc).value = filled caps doc 0 template :=
  shape_output caps doc 0 rootQualifier template hfree

/-- Two leaves of one object are cut, and the note names the later one; a list drops the
note of its item, and what lies below the cap is null. -/
theorem project_value_eq_filled_of_two_cuts :
    let caps : Caps := ⟨2, 2⟩
    let doc : Value := .object [("a", .array [.bool true, .bool false, .null])]
    let template : Value := .object [("p", .string "$.a[*]"),
      ("q", .array [.string "$.a.*"]), ("r", .object [("s", .array [.string "$.a"])]),
      ("t", .string "$.a.*"), ("u", .string "a")]
    template.AvoidsKey Note.key ∧
      (project caps template doc).value = filled caps doc 0 template ∧
      filled caps doc 0 template = .object [("p", .array [.bool true, .bool false]),
        ("q", .array [.array [.bool true, .bool false]]),
        ("r", .object [("s", .array [.null])]), ("t", .array [.bool true, .bool false]),
        ("u", .null),
        ("__meta", .object [("truncated", .bool true), ("truncatedField", .string "t"),
          ("returnedItems", .number (.integer 2))])] := by
  intro caps doc template
  have hfree : template.AvoidsKey Note.key := by decide
  exact ⟨hfree, project_value_eq_filled caps template doc hfree, by cbv⟩

end DocWeave.Projection
