/-
Conditions on the keys of a document: what holds of the keys of every object in it,
at any depth.  Readers and merging only ever make objects with distinct keys; the type
of values alone does not exclude others.
-/
import DocWeave.Proofs.Entries.Order
import DocWeave.Value.Basic

namespace DocWeave.Value

/-- The keys of every object in a document, at any depth, satisfy a condition. -/
inductive ObjectKeys (p : List String → Prop) : Value → Prop
  | null : ObjectKeys p .null
  | bool (b : Bool) : ObjectKeys p (.bool b)
  | number (n : Number) : ObjectKeys p (.number n)
  | string (s : String) : ObjectKeys p (.string s)
  | array {items : List Value} (hitems : ∀ item ∈ items, ObjectKeys p item) :
      ObjectKeys p (.array items)
  | object {members : Entries Value} (hkeys : p (Entries.keys members))
      (hmembers : ∀ member ∈ members, ObjectKeys p member.2) :
      ObjectKeys p (.object members)

/-- No object in a document holds a key twice. -/
def DistinctKeys : Value → Prop :=
  ObjectKeys List.Nodup

def AvoidsKey (key : String) : Value → Prop :=
  ObjectKeys fun keys => key ∉ keys

variable {p : List String → Prop}

theorem objectKeys_array_iff (items : List Value) :
    ObjectKeys p (.array items) ↔ ∀ item ∈ items, item.ObjectKeys p := by
  constructor
  · intro h
    cases h with
    | array hitems => exact hitems
  · exact .array

theorem objectKeys_object_iff (members : Entries Value) :
    ObjectKeys p (.object members) ↔
      p (Entries.keys members) ∧ ∀ member ∈ members, member.2.ObjectKeys p := by
  constructor
  · intro h
    cases h with
    | object hkeys hmembers => exact ⟨hkeys, hmembers⟩
  · rintro ⟨hkeys, hmembers⟩
    exact .object hkeys hmembers

/-- A member of a document meets the condition that the document meets. -/
theorem ObjectKeys.get? {v member : Value} {key : String} (h : v.ObjectKeys p)
    (hmember : v.get? key = some member) : member.ObjectKeys p := by
  cases h with
  | object _ hmembers =>
      exact hmembers (key, member) (Entries.mem_of_find? hmember)
  | _ => simp [Value.get?, members?] at hmember

/-- Whatever is found under a key is smaller than the whole. -/
theorem sizeOf_get?_lt {v member : Value} {key : String} (h : v.get? key = some member) :
    sizeOf member < sizeOf v := by
  cases v with
  | object members =>
      have hlt := List.sizeOf_lt_of_mem (Entries.mem_of_find? h)
      simp only [Prod.mk.sizeOf_spec, object.sizeOf_spec] at hlt ⊢
      omega
  | _ => simp [Value.get?, members?] at h

/-! ### Deciding -/

section

variable [DecidablePred p]

mutual

def decideObjectKeys : (v : Value) → Decidable (v.ObjectKeys p)
  | .null => .isTrue .null
  | .bool b => .isTrue (.bool b)
  | .number n => .isTrue (.number n)
  | .string s => .isTrue (.string s)
  | .array items =>
      have := decideItems items
      decidable_of_iff' _ (objectKeys_array_iff items)
  | .object members =>
      have := decideMembers members
      decidable_of_iff' _ (objectKeys_object_iff members)

def decideItems : (items : List Value) → Decidable (∀ item ∈ items, item.ObjectKeys p)
  | [] => .isTrue (by simp)
  | item :: rest =>
      have := decideObjectKeys item
      have := decideItems rest
      decidable_of_iff' _ List.forall_mem_cons

def decideMembers : (members : List (String × Value)) →
    Decidable (∀ member ∈ members, member.2.ObjectKeys p)
  | [] => .isTrue (by simp)
  | (_, value) :: rest =>
      have := decideObjectKeys value
      have := decideMembers rest
      decidable_of_iff' (value.ObjectKeys p ∧ ∀ member ∈ rest, member.2.ObjectKeys p)
        List.forall_mem_cons

end

instance : DecidablePred DistinctKeys :=
  decideObjectKeys

instance (key : String) : DecidablePred (AvoidsKey key) :=
  decideObjectKeys

end

end DocWeave.Value
