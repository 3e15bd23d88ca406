/-
Keyed entries in insertion order: the shape of every object, attribute list and
table row in the library.  A key that is written again keeps its place and takes
the new value, so the order of the keys tells when each was first seen.
-/

namespace DocWeave

universe u

/-- Values under string keys, oldest key first. -/
abbrev Entries (α : Type u) := List (String × α)

namespace Entries

variable {α : Type u}

def keys (entries : Entries α) : List String :=
  entries.map Prod.fst

def find? (key : String) : Entries α → Option α
  | [] => none
  | (k, v) :: rest => if k = key then some v else find? key rest

/-- Writes a value under a key: in place when the key is present, at the end
otherwise. -/
def insert (key : String) (value : α) : Entries α → Entries α
  | [] => [(key, value)]
  | (k, v) :: rest =>
      if k = key then (key, value) :: rest else (k, v) :: insert key value rest

def ofPairs (pairs : List (String × α)) : Entries α :=
  pairs.foldl (fun entries pair => insert pair.1 pair.2 entries) []

@[simp] theorem find?_nil (key : String) : find? key ([] : Entries α) = none := rfl

@[simp] theorem keys_nil : keys ([] : Entries α) = [] := rfl

@[simp] theorem keys_cons (pair : String × α) (rest : Entries α) :
    keys (pair :: rest) = pair.1 :: keys rest := rfl

theorem find?_eq_none_iff (key : String) (entries : Entries α) :
    find? key entries = none ↔ key ∉ keys entries := by
  induction entries with
  | nil => simp
  | cons pair rest ih =>
      by_cases h : pair.1 = key
      · simp [find?, h]
      · simp [find?, h, ih, Ne.symm h]

@[simp] theorem find?_insert_self (key : String) (value : α) (entries : Entries α) :
    find? key (insert key value entries) = some value := by
  induction entries with
  | nil => simp [insert, find?]
  | cons pair rest ih =>
      by_cases h : pair.1 = key
      · simp [insert, find?, h]
      · simp [insert, find?, h, ih]

theorem find?_insert_of_ne {key other : String} (h : other ≠ key) (value : α)
    (entries : Entries α) :
    find? other (insert key value entries) = find? other entries := by
  induction entries with
  | nil => simp [insert, find?, Ne.symm h]
  | cons pair rest ih =>
      by_cases hk : pair.1 = key
      · have hother : pair.1 ≠ other := fun e => h (e.symm.trans hk)
        simp [insert, find?, hk, Ne.symm h]
      · by_cases ho : pair.1 = other
        · simp [insert, find?, ho, h]
        · simp [insert, find?, hk, ho, ih]

/-- A present key keeps its place. -/
theorem keys_insert_of_mem {key : String} {entries : Entries α}
    (h : key ∈ keys entries) (value : α) :
    keys (insert key value entries) = keys entries := by
  induction entries with
  | nil => simp at h
  | cons pair rest ih =>
      by_cases hk : pair.1 = key
      · simp [insert, hk]
      · have hrest : key ∈ keys rest := by simpa [Ne.symm hk] using h
        simp [insert, hk, ih hrest]

/-- A new key goes to the end. -/
theorem insert_of_not_mem {key : String} {entries : Entries α}
    (h : key ∉ keys entries) (value : α) :
    insert key value entries = entries ++ [(key, value)] := by
  induction entries with
  | nil => rfl
  | cons pair rest ih =>
      have hk : pair.1 ≠ key := fun e => h (by simp [e])
      have hrest : key ∉ keys rest := fun hm => h (by simp [hm])
      simp [insert, hk, ih hrest]

/-- Writing never makes a key occur twice. -/
theorem nodup_keys_insert {entries : Entries α} (h : (keys entries).Nodup)
    (key : String) (value : α) : (keys (insert key value entries)).Nodup := by
  by_cases hk : key ∈ keys entries
  · rw [keys_insert_of_mem hk]
    exact h
  · rw [insert_of_not_mem hk]
    simp only [keys, List.map_append, List.map_cons, List.map_nil]
    refine List.nodup_append.2 ⟨h, by simp, ?_⟩
    intro a ha b hb heq
    have hb' : b = key := by simpa using hb
    exact hk (by rw [← hb', ← heq]; exact ha)

end Entries

end DocWeave
