/-
Well-formed documents: no object holds a key twice, and no double is infinite or not a
number.  Writing well-formed values into a well-formed object gives one again, and merging
well-formed documents does.
-/
import DocWeave.Proofs.Value.Writing

namespace DocWeave

namespace Value

/-- What is asked of a single value: an object has no key twice, and a double is finite. -/
def IsSound : Value → Prop
  | .object members => (Entries.keys members).Nodup
  | .number (.float x) => x.isFinite
  | .null | .bool _ | .number (.integer _) | .string _ | .array _ => True

instance : DecidablePred IsSound
  | .object members => inferInstanceAs (Decidable (Entries.keys members).Nodup)
  | .number (.float x) => inferInstanceAs (Decidable (x.isFinite = true))
  | .null | .bool _ | .number (.integer _) | .string _ | .array _ =>
      inferInstanceAs (Decidable True)

/-- Every object in a document has distinct keys, and every double in it is finite. -/
def WellFormed : Value → Prop :=
  Everywhere IsSound

instance : DecidablePred WellFormed :=
  inferInstanceAs (DecidablePred (Everywhere _))

@[simp] theorem wellFormed_null : Value.null.WellFormed :=
  (everywhere_iff_of_parts_eq_nil rfl).2 trivial

@[simp] theorem wellFormed_bool (b : Bool) : (Value.bool b).WellFormed :=
  (everywhere_iff_of_parts_eq_nil rfl).2 trivial

@[simp] theorem wellFormed_string (s : String) : (Value.string s).WellFormed :=
  (everywhere_iff_of_parts_eq_nil rfl).2 trivial

@[simp] theorem wellFormed_integer (n : Int64) : (Value.number (.integer n)).WellFormed :=
  (everywhere_iff_of_parts_eq_nil rfl).2 trivial

theorem wellFormed_float_iff (x : Float) :
    (Value.number (.float x)).WellFormed ↔ x.isFinite :=
  everywhere_iff_of_parts_eq_nil rfl

theorem wellFormed_array_iff (items : List Value) :
    (Value.array items).WellFormed ↔ ∀ item ∈ items, item.WellFormed := by
  rw [WellFormed, everywhere_array_iff]
  exact and_iff_right trivial

theorem wellFormed_object_iff (members : Entries Value) :
    (Value.object members).WellFormed ↔
      (Entries.keys members).Nodup ∧ ∀ member ∈ members, member.2.WellFormed :=
  everywhere_object_iff members

@[simp] theorem wellFormed_object_nil : (Value.object []).WellFormed :=
  (wellFormed_object_iff []).2 ⟨List.nodup_nil, by simp⟩

theorem wellFormed_of_ofFloat? {x : Float} {n : Number} (h : Number.ofFloat? x = some n) :
    (Value.number n).WellFormed := by
  rw [Number.ofFloat?] at h
  split at h
  next hfinite =>
    cases h
    exact (wellFormed_float_iff x).2 hfinite
  next => cases h

theorem wellFormed_of_ofInt? {i : Int} {n : Number} (h : Number.ofInt? i = some n) :
    (Value.number n).WellFormed := by
  rw [Number.ofInt?] at h
  split at h
  next =>
    cases h
    exact wellFormed_integer _
  next => cases h

theorem wellFormed_ofCount (n : Nat) : (ofCount n).WellFormed :=
  wellFormed_integer _

/-- A well-formed document has distinct keys throughout. -/
theorem WellFormed.distinctKeys {v : Value} (h : v.WellFormed) : v.DistinctKeys := by
  induction h with
  | @intro v here inside ih =>
      cases v with
      | null => exact .null
      | bool b => exact .bool b
      | number n => exact .number n
      | string s => exact .string s
      | array items => exact .array ih
      | object members =>
          exact .object here fun member hmember => ih member.2 (List.mem_map_of_mem hmember)

/-! ### Writing into objects -/

/-- Writing a member keeps the keys of an object distinct. -/
theorem keptByWriting_isSound : KeptByWriting IsSound where
  array _ := trivial
  empty := List.nodup_nil
  insert h key v := Entries.nodup_keys_insert h key v

variable {entries : Entries Value}

theorem WellFormed.insert (h : (Value.object entries).WellFormed) (key : String) {v : Value}
    (hv : v.WellFormed) : (Value.object (Entries.insert key v entries)).WellFormed :=
  keptByWriting_isSound.everywhere_insert h key hv

theorem wellFormed_ofPairs {pairs : Entries Value} (h : ∀ pair ∈ pairs, pair.2.WellFormed) :
    (Value.object (Entries.ofPairs pairs)).WellFormed :=
  keptByWriting_isSound.everywhere_ofPairs h

/-! ### Merging -/

theorem WellFormed.merge {older : Value} (holder : older.WellFormed) (newer : Value)
    (hnewer : newer.WellFormed) : (Value.merge older newer).WellFormed :=
  keptByWriting_isSound.everywhere_merge holder newer hnewer

theorem wellFormed_mergeAll {docs : List Value} (h : ∀ doc ∈ docs, doc.WellFormed) :
    (mergeAll docs).WellFormed :=
  keptByWriting_isSound.everywhere_mergeAll trivial h

end Value

end DocWeave
