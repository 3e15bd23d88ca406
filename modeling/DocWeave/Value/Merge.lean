/-
Merging documents.  Arrays are concatenated and objects are merged key by key;
wherever the two sides have different shapes, or are scalars, the newer side
replaces the older one.
-/
import DocWeave.Value.Basic

namespace DocWeave.Value

mutual

/-- The older document with the newer one merged into it. -/
def merge (older : Value) : Value → Value
  | .array items =>
      match older with
      | .array first => .array (first ++ items)
      | _ => .array items
  | .object members =>
      match older with
      | .object first => .object (mergeMembers first members)
      | _ => .object members
  | newer => newer

/-- Brings members in one by one: a known key keeps its place and its value is
merged, a new key goes to the end. -/
def mergeMembers (first : Entries Value) : List (String × Value) → Entries Value
  | [] => first
  | (key, value) :: rest =>
      match Entries.find? key first with
      | some old => mergeMembers (Entries.insert key (merge old value) first) rest
      | none => mergeMembers (Entries.insert key value first) rest

end

/-- All documents merged from left to right; without any, null. -/
def mergeAll : List Value → Value
  | [] => .null
  | first :: rest => rest.foldl merge first

@[simp] theorem merge_array_array (xs ys : List Value) :
    merge (.array xs) (.array ys) = .array (xs ++ ys) := by
  simp [merge]

@[simp] theorem merge_object_object (m n : List (String × Value)) :
    merge (.object m) (.object n) = .object (mergeMembers m n) := by
  simp [merge]

/-- Values of different kinds do not combine: the newer one stands. -/
theorem merge_of_kind_ne {older newer : Value} (h : older.kind ≠ newer.kind) :
    merge older newer = newer := by
  cases newer <;> cases older <;> simp_all [merge, kind]

/-- A newer scalar stands alone. -/
theorem merge_of_scalar {newer : Value} (h : newer.isContainer = false) (older : Value) :
    merge older newer = newer := by
  cases newer <;> simp_all [merge, isContainer, kind]

@[simp] theorem mergeAll_singleton (v : Value) : mergeAll [v] = v := rfl

/-- One more document is merged into what the earlier ones gave. -/
theorem mergeAll_append_singleton {docs : List Value} (h : docs ≠ []) (doc : Value) :
    mergeAll (docs ++ [doc]) = merge (mergeAll docs) doc := by
  cases docs with
  | nil => exact absurd rfl h
  | cons first rest => simp [mergeAll, List.foldl_append]

end DocWeave.Value
