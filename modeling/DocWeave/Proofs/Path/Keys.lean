/-
Paths of keys.  From key to key a document is followed through objects only, so whatever
stands at the end of such a path stands there once, and every place on the way to it is an
object.
-/
import DocWeave.Proofs.Path.Location

namespace DocWeave

namespace Value

variable {v x : Value}

/-- What stands at the end of a path of keys. -/
def atKeys? (v : Value) (keys : List String) : Option Value :=
  v.at? (keys.map .key)

@[simp] theorem atKeys?_nil (v : Value) : v.atKeys? [] = some v := rfl

theorem atKeys?_cons (v : Value) (key : String) (rest : List String) :
    v.atKeys? (key :: rest) = (v.get? key).bind fun child => child.atKeys? rest := rfl

theorem atKeys?_cons_eq_some_iff {key : String} {rest : List String} :
    v.atKeys? (key :: rest) = some x ↔
      ∃ child, v.get? key = some child ∧ child.atKeys? rest = some x := by
  rw [atKeys?_cons, Option.bind_eq_some_iff]

theorem kind_eq_object_iff : v.kind = .object ↔ ∃ members, v = .object members := by
  constructor
  · intro h
    cases v with
    | object members => exact ⟨members, rfl⟩
    | _ => cases h
  · rintro ⟨members, rfl⟩
    rfl

@[simp] theorem get?_object (key : String) (members : Entries Value) :
    (Value.object members).get? key = Entries.find? key members := rfl

theorem get?_of_kind_ne {key : String} (h : v.kind ≠ .object) : v.get? key = none := by
  cases v with
  | object members => exact absurd rfl h
  | _ => rfl

theorem kind_of_get? {key : String} (h : v.get? key = some x) : v.kind = .object := by
  by_contra hkind
  rw [get?_of_kind_ne hkind] at h
  cases h

end Value

/-- The steps that follow a path of keys lead to what stands at its end. -/
theorem Path.select_map_property (keys : List String) (root : Value) :
    Path.select (keys.map .property) root = (root.atKeys? keys).toList := by
  induction keys generalizing root with
  | nil => rfl
  | cons key rest ih =>
      rw [List.map_cons, Path.select_cons, Value.atKeys?_cons, Step.select]
      cases root.get? key with
      | none => rfl
      | some child => simpa using ih child

end DocWeave
