/-
Templates that mirror a document.  A template with the containers of a document, and with
the path to its place instead of every scalar, is filled with the document itself: each leaf
finds one value, so nothing is cut, and the template is as deep as the document.
-/
import DocWeave.Proofs.Path.Address
import DocWeave.Proofs.Projection.Filled

namespace DocWeave

/-! ### Places inside a document -/

theorem Value.at?_append (v : Value) (first second : Location) :
    v.at? (first ++ second) = (v.at? first).bind fun inner => inner.at? second := by
  induction first generalizing v with
  | nil => rfl
  | cons place rest ih =>
      rw [List.cons_append, Value.at?, Value.at?]
      cases place.in? v with
      | none => rfl
      | some child => exact ih child

theorem Value.at?_append_singleton {v inner : Value} {location : Location}
    (h : v.at? location = some inner) (place : Place) :
    v.at? (location ++ [place]) = place.in? inner := by
  rw [Value.at?_append, h, Option.bind_some, Value.at?]
  cases place.in? inner <;> rfl

namespace Projection

/-! ### The template -/

mutual

/-- The containers of a value that stands at a location, with the path to its place instead
of every scalar. -/
def mirror (path : Location → String) (location : Location) : Value → Value
  | .array items => .array (mirrorItems path location 0 items)
  | .object members => .object (mirrorMembers path location members)
  | .null | .bool _ | .number _ | .string _ => .string (path location)

def mirrorItems (path : Location → String) (location : Location) (position : Nat) :
    List Value → List Value
  | [] => []
  | item :: rest =>
      mirror path (location ++ [.item position]) item ::
        mirrorItems path location (position + 1) rest

def mirrorMembers (path : Location → String) (location : Location) :
    List (String × Value) → Entries Value
  | [] => []
  | (key, value) :: rest =>
      (key, mirror path (location ++ [.key key]) value) :: mirrorMembers path location rest

end

/-- A function from locations to texts gives, for each scalar of a document, one of the ways
of writing the path to it. -/
def NamesScalars (root : Value) (path : Location → String) : Prop :=
  ∀ location scalar, root.at? location = some scalar → scalar.isContainer = false →
    location.HasPath root (path location)

/-! ### Filling it -/

/-- A part of a document that can be named and lies no deeper than the cap. -/
structure Reached (caps : Caps) (root : Value) (depth : Nat) (location : Location)
    (v : Value) : Prop where
  stands : root.at? location = some v
  named : Place.key "" ∉ location
  distinct : v.DistinctKeys
  nonempty : v.AvoidsKey ""
  shallow : depth + v.nesting ≤ caps.depth

section

variable {caps : Caps} {root : Value} {depth : Nat} {location : Location}

theorem Reached.not_deep {v : Value} (h : Reached caps root depth location v) :
    ¬ caps.depth < depth := by
  have := h.shallow
  omega

theorem Reached.item {items : List Value}
    (h : Reached caps root depth location (.array items)) {position : Nat} {item : Value}
    (hitem : items[position]? = some item) :
    Reached caps root (depth + 1) (location ++ [.item position]) item where
  stands := (Value.at?_append_singleton h.stands (.item position)).trans hitem
  named := by simpa using h.named
  distinct := (Value.objectKeys_array_iff items).1 h.distinct item (List.mem_of_getElem? hitem)
  nonempty := (Value.objectKeys_array_iff items).1 h.nonempty item (List.mem_of_getElem? hitem)
  shallow := by
    obtain ⟨below, hbelow, hitems⟩ := Value.nesting_array_le_iff.1 (Nat.le_refl _)
    have hdeep := h.shallow
    have hitem := hitems item (List.mem_of_getElem? hitem)
    omega

theorem Reached.member {members : Entries Value}
    (h : Reached caps root depth location (.object members)) {key : String} {value : Value}
    (hmember : (key, value) ∈ members) :
    Reached caps root (depth + 1) (location ++ [.key key]) value := by
  obtain ⟨hnodup, hdistinct⟩ := (Value.objectKeys_object_iff members).1 h.distinct
  obtain ⟨hkeys, hnonempty⟩ := (Value.objectKeys_object_iff members).1 h.nonempty
  have hkey : key ∈ Entries.keys members := List.mem_map_of_mem (f := Prod.fst) hmember
  constructor
  · exact (Value.at?_append_singleton h.stands (.key key)).trans
      (Entries.find?_of_mem hnodup hmember)
  · have hne : key ≠ "" := fun heq => hkeys (heq ▸ hkey)
    simpa [Ne.symm hne] using h.named
  · exact hdistinct (key, value) hmember
  · exact hnonempty (key, value) hmember
  · obtain ⟨below, hbelow, hmembers⟩ := Value.nesting_object_le_iff.1 (Nat.le_refl _)
    have hdeep := h.shallow
    have hvalue : value.nesting ≤ below := hmembers (key, value) hmember
    omega

/-- A leaf with the path to a part of the document is filled with the part. -/
theorem leaf_of_hasPath (hfits : root.Everywhere Value.FitsIndex) {v : Value}
    (h : Reached caps root depth location v) {path : String}
    (hpath : location.HasPath root path) (cap : Nat) (qualifier : String) :
    leaf cap root qualifier path = plain v := by
  rw [leaf, hpath.evaluate_eq hfits h.stands h.named]
  rfl

variable {path : Location → String}

mutual

theorem shape_mirror (hfits : root.Everywhere Value.FitsIndex) (hpath : NamesScalars root path)
    {depth : Nat} {location : Location} (qualifier : String) :
    (v : Value) → Reached caps root depth location v →
      shape caps root depth qualifier (mirror path location v) = plain v
  | .array items, h => by
      have hitems := shapeItems_mirror hfits hpath 0 items
        fun position item hitem => by
          rw [Nat.zero_add]
          exact h.item hitem
      rw [mirror, shape, if_neg h.not_deep]
      simp only [hitems]
      rfl
  | .object members, h => by
      have hmembers := shapeMembers_mirror hfits hpath members
        fun key value hmember => h.member hmember
      rw [mirror, shape, if_neg h.not_deep]
      simp only [hmembers]
      rfl
  | .null, h | .bool _, h | .number _, h | .string _, h => by
      rw [mirror, shape, if_neg h.not_deep]
      exact leaf_of_hasPath hfits h (hpath location _ h.stands rfl) caps.items qualifier

theorem shapeItems_mirror (hfits : root.Everywhere Value.FitsIndex)
    (hpath : NamesScalars root path) {depth : Nat} {location : Location} (place : Nat) :
    (items : List Value) →
      (∀ position item, items[position]? = some item →
        Reached caps root depth (location ++ [.item (place + position)]) item) →
      shapeItems caps root depth place (mirrorItems path location place items) = plain items
  | [], _ => rfl
  | item :: rest, h => by
      have hfirst : shape caps root depth (Nat.repr place)
          (mirror path (location ++ [.item place]) item) = plain item :=
        shape_mirror hfits hpath (Nat.repr place) item (h 0 item rfl)
      have hothers := shapeItems_mirror hfits hpath (place + 1) rest
        fun position other hother => by
          rw [Nat.add_assoc, Nat.add_comm 1]
          exact h (position + 1) other hother
      rw [mirrorItems, shapeItems]
      simp only [hfirst, hothers]
      rfl

theorem shapeMembers_mirror (hfits : root.Everywhere Value.FitsIndex)
    (hpath : NamesScalars root path) {depth : Nat} {location : Location} :
    (members : List (String × Value)) →
      (∀ key value, (key, value) ∈ members →
        Reached caps root depth (location ++ [.key key]) value) →
      shapeMembers caps root depth (mirrorMembers path location members) = plain members
  | [], _ => rfl
  | (key, value) :: rest, h => by
      have hfirst := shape_mirror hfits hpath key value (h key value List.mem_cons_self)
      have hothers := shapeMembers_mirror hfits hpath rest fun other v hother =>
        h other v (List.mem_cons_of_mem (key, value) hother)
      rw [mirrorMembers, shapeMembers]
      simp only [hfirst, hothers]
      rfl

end

end

/-- A template that mirrors a document is filled with the document, and nothing is left out,
whatever the array cap: no key of the document is empty, its containers nest no deeper than
the depth cap, and each scalar has one of its paths in the template. -/
theorem project_mirror {root : Value} (hdistinct : root.DistinctKeys)
    (hnonempty : root.AvoidsKey "") (hfits : root.Everywhere Value.FitsIndex) {caps : Caps}
    (hdepth : root.nesting ≤ caps.depth) {path : Location → String}
    (hpath : NamesScalars root path) :
    project caps (mirror path [] root) root = ⟨root, ⟨false, [], false⟩⟩ := by
  have hreached : Reached caps root 0 [] root :=
    ⟨rfl, List.not_mem_nil, hdistinct, hnonempty, by rwa [Nat.zero_add]⟩
  rw [project, shape_mirror hfits hpath rootQualifier root hreached]
  rfl

/-- A document that is as deep as the cap allows, with no room for lists of matches, a key
that is reserved for notes, texts that look like paths, and an empty container. -/
theorem project_mirror_of_reserved_key :
    let root : Value := .object [("__meta", .array [.string "$.a", .null, .array []]),
      ("a'b", .object [("$", .object [])]), ("c", .string "")]
    let template : Value := .object [
      ("__meta", .array [.string "$['__meta'][0]", .string "$['__meta'][1]", .array []]),
      ("a'b", .object [("$", .object [])]), ("c", .string "$['c']")]
    let caps : Caps := ⟨3, 0⟩
    root.DistinctKeys ∧ root.AvoidsKey "" ∧ root.Everywhere Value.FitsIndex ∧
      root.nesting ≤ caps.depth ∧ mirror Location.path [] root = template ∧
      project caps template root = ⟨root, ⟨false, [], false⟩⟩ := by
  intro root template caps
  have hdistinct : root.DistinctKeys := by decide
  have hnonempty : root.AvoidsKey "" := by decide
  have hfits : root.Everywhere Value.FitsIndex := by decide
  have hdepth : root.nesting ≤ caps.depth := by decide
  have hmirror : mirror Location.path [] root = template := by cbv
  refine ⟨hdistinct, hnonempty, hfits, hdepth, hmirror, ?_⟩
  rw [← hmirror]
  exact project_mirror hdistinct hnonempty hfits hdepth fun location leaf hat _ =>
    Location.hasPath_path hat

end Projection

end DocWeave
