/-
Conditions that hold throughout a document and are kept when values are written into
objects.  Whatever is built by writing members one after the other, and whatever merging
documents gives, meets such a condition when the parts do.
-/
import DocWeave.Proofs.Value.Parts
import DocWeave.Value.Merge

namespace DocWeave

namespace Entries

variable {α : Type}

/-- What is found among written entries was written or was there before. -/
theorem mem_of_mem_insert {key : String} {value : α} {entries : Entries α}
    {pair : String × α} (h : pair ∈ insert key value entries) :
    pair = (key, value) ∨ pair ∈ entries := by
  induction entries with
  | nil => exact Or.inl (List.mem_singleton.1 h)
  | cons first rest ih =>
      rw [insert] at h
      split at h
      next =>
        rcases List.mem_cons.1 h with rfl | hrest
        · exact Or.inl rfl
        · exact Or.inr (List.mem_cons_of_mem first hrest)
      next =>
        rcases List.mem_cons.1 h with rfl | hrest
        · exact Or.inr List.mem_cons_self
        · exact (ih hrest).imp_right (List.mem_cons_of_mem first)

theorem mem_of_mem_ofPairs {pairs : List (String × α)} :
    ∀ pair ∈ ofPairs pairs, pair ∈ pairs := by
  apply List.foldlRecOn (motive := fun entries => ∀ pair ∈ entries, pair ∈ pairs)
  · simp
  · intro entries hentries written hwritten pair hpair
    rcases mem_of_mem_insert hpair with rfl | hold
    · exact hwritten
    · exact hentries pair hold

end Entries

namespace Value

/-- A condition that every array meets, that the empty object meets, and that an object
still meets when a member is written into it. -/
structure KeptByWriting (p : Value → Prop) : Prop where
  array (items : List Value) : p (.array items)
  empty : p (.object [])
  insert {entries : Entries Value} (h : p (.object entries)) (key : String) (v : Value) :
    p (.object (Entries.insert key v entries))

variable {p : Value → Prop} {entries : Entries Value}

theorem Everywhere.find? (h : (Value.object entries).Everywhere p) {key : String} {v : Value}
    (hfind : Entries.find? key entries = some v) : v.Everywhere p :=
  ((everywhere_object_iff entries).1 h).2 (key, v) (Entries.mem_of_find? hfind)

theorem Everywhere.insert (h : (Value.object entries).Everywhere p) {key : String} {v : Value}
    (hhere : p (.object (Entries.insert key v entries))) (hv : v.Everywhere p) :
    (Value.object (Entries.insert key v entries)).Everywhere p := by
  obtain ⟨-, hmembers⟩ := (everywhere_object_iff entries).1 h
  refine (everywhere_object_iff _).2 ⟨hhere, fun member hmember => ?_⟩
  rcases Entries.mem_of_mem_insert hmember with rfl | hmember
  · exact hv
  · exact hmembers member hmember

namespace KeptByWriting

variable (hp : KeptByWriting p)

include hp

theorem everywhere_array_iff (items : List Value) :
    (Value.array items).Everywhere p ↔ ∀ item ∈ items, item.Everywhere p := by
  rw [Value.everywhere_array_iff]
  exact and_iff_right (hp.array items)

theorem everywhere_empty : (Value.object []).Everywhere p :=
  (everywhere_object_iff []).2 ⟨hp.empty, by simp⟩

theorem everywhere_insert (h : (Value.object entries).Everywhere p) (key : String) {v : Value}
    (hv : v.Everywhere p) : (Value.object (Entries.insert key v entries)).Everywhere p :=
  h.insert (hp.insert ((everywhere_object_iff entries).1 h).1 key v) hv

theorem everywhere_ofPairs {pairs : Entries Value} (h : ∀ pair ∈ pairs, pair.2.Everywhere p) :
    (Value.object (Entries.ofPairs pairs)).Everywhere p :=
  List.foldlRecOn (motive := fun entries => (Value.object entries).Everywhere p) pairs _
    hp.everywhere_empty fun _ hentries pair hpair =>
      hp.everywhere_insert hentries pair.1 (h pair hpair)

/-! ### Merging -/

mutual

theorem everywhere_merge {older : Value} (holder : older.Everywhere p) :
    (newer : Value) → newer.Everywhere p → (Value.merge older newer).Everywhere p
  | .array items, hnewer => by
      cases older with
      | array first =>
          rw [hp.everywhere_array_iff] at holder hnewer
          rw [merge_array_array, hp.everywhere_array_iff, List.forall_mem_append]
          exact ⟨holder, hnewer⟩
      | null | bool _ | number _ | string _ | object _ => exact hnewer
  | .object members, hnewer => by
      cases older with
      | object first =>
          rw [merge_object_object]
          exact everywhere_mergeMembers holder members ((everywhere_object_iff members).1 hnewer).2
      | null | bool _ | number _ | string _ | array _ => exact hnewer
  | .null, hnewer | .bool _, hnewer | .number _, hnewer | .string _, hnewer => by
      rw [merge_of_scalar rfl]
      exact hnewer

theorem everywhere_mergeMembers {first : Entries Value}
    (hfirst : (Value.object first).Everywhere p) :
    (members : List (String × Value)) → (∀ member ∈ members, member.2.Everywhere p) →
      (Value.object (Value.mergeMembers first members)).Everywhere p
  | [], _ => hfirst
  | (key, value) :: rest, hmembers => by
      obtain ⟨hvalue, hrest⟩ := List.forall_mem_cons.1 hmembers
      rw [Value.mergeMembers]
      split
      next old hold =>
        have hmerged := everywhere_merge (hfirst.find? hold) value hvalue
        exact everywhere_mergeMembers (hp.everywhere_insert hfirst key hmerged) rest hrest
      next => exact everywhere_mergeMembers (hp.everywhere_insert hfirst key hvalue) rest hrest

end

theorem everywhere_mergeAll (hnull : p .null) {docs : List Value}
    (h : ∀ doc ∈ docs, doc.Everywhere p) : (mergeAll docs).Everywhere p := by
  cases docs with
  | nil => exact (everywhere_iff_of_parts_eq_nil rfl).2 hnull
  | cons first rest =>
      obtain ⟨hfirst, hrest⟩ := List.forall_mem_cons.1 h
      exact List.foldlRecOn rest Value.merge hfirst fun _ hmerged doc hdoc =>
        hp.everywhere_merge hmerged doc (hrest doc hdoc)

end KeptByWriting

end Value

end DocWeave
