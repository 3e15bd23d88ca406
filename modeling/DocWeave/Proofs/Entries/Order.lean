/-
The order of keys.  Writing a key keeps the order in which keys were first seen, and
entries are known once their keys, in order, and the value under each are known.
-/
import Mathlib.Data.List.Induction
import DocWeave.Entries

namespace DocWeave

universe u

variable {α : Type u}

/-! ### First occurrences -/

/-- Items that were there before do not count again. -/
theorem eraseDups_append_cons_of_mem {x : String} {seen : List String} (h : x ∈ seen)
    (rest : List String) : (seen ++ x :: rest).eraseDups = (seen ++ rest).eraseDups := by
  rw [List.eraseDups_append, List.eraseDups_append]
  simp [List.removeAll, h]

theorem eraseDups_of_nodup {xs : List String} (h : xs.Nodup) : xs.eraseDups = xs := by
  induction xs with
  | nil => rfl
  | cons x rest ih =>
      obtain ⟨hx, hrest⟩ := List.nodup_cons.1 h
      have hkeep : rest.filter (fun y => !y == x) = rest := by
        rw [List.filter_eq_self]
        intro y hy
        have hne : y ≠ x := fun heq => hx (heq ▸ hy)
        simp [hne]
      rw [List.eraseDups_cons, hkeep, ih hrest]

theorem nodup_eraseDups (xs : List String) : xs.eraseDups.Nodup := by
  cases xs with
  | nil => exact List.nodup_nil
  | cons x rest =>
      rw [List.eraseDups_cons]
      refine List.nodup_cons.2 ⟨?_, nodup_eraseDups (rest.filter fun y => !y == x)⟩
      intro hx
      have hx := List.mem_eraseDups.1 hx
      simp at hx
termination_by xs.length
decreasing_by exact Nat.lt_succ_of_le (List.length_filter_le _ _)

/-- Leaving items out does not change the order in which the others first come up. -/
theorem eraseDups_filter (p : String → Bool) (xs : List String) :
    (xs.filter p).eraseDups = xs.eraseDups.filter p := by
  -- `eraseDups` goes on with a filtered rest, so the induction is on the length
  cases xs with
  | nil => rfl
  | cons x rest =>
      have swap : (rest.filter p).filter (fun y => !y == x) =
          (rest.filter fun y => !y == x).filter p := by
        rw [List.filter_filter, List.filter_filter]
        simp only [Bool.and_comm]
      have hlen : (rest.filter fun y => !y == x).length < (x :: rest).length :=
        Nat.lt_succ_of_le (List.length_filter_le _ _)
      have ih := eraseDups_filter p (rest.filter fun y => !y == x)
      by_cases hx : p x = true
      · rw [List.filter_cons_of_pos hx, List.eraseDups_cons, List.eraseDups_cons,
          List.filter_cons_of_pos hx, swap, ih]
      · have hgone : (rest.filter p).filter (fun y => !y == x) = rest.filter p := by
          rw [List.filter_eq_self]
          intro y hy
          have hne : y ≠ x := fun heq => hx (heq ▸ (List.mem_filter.1 hy).2)
          simp [hne]
        rw [List.filter_cons_of_neg hx, List.eraseDups_cons, List.filter_cons_of_neg hx, ← ih,
          ← swap, hgone]
termination_by xs.length
decreasing_by exact hlen

theorem eraseDups_eraseDups_append (xs ys : List String) :
    (xs.eraseDups ++ ys).eraseDups = (xs ++ ys).eraseDups := by
  have hsame : ys.removeAll xs.eraseDups = ys.removeAll xs := by
    simp [List.removeAll, List.mem_eraseDups]
  rw [List.eraseDups_append, List.eraseDups_append, eraseDups_of_nodup (nodup_eraseDups xs),
    hsame]

/-- Removing repetitions in the second part first does not change what is left. -/
theorem eraseDups_append_eraseDups (xs ys : List String) :
    (xs ++ ys.eraseDups).eraseDups = (xs ++ ys).eraseDups := by
  have hsame : (ys.eraseDups.removeAll xs).eraseDups = (ys.removeAll xs).eraseDups := by
    rw [List.removeAll, List.removeAll, eraseDups_filter, eraseDups_filter,
      eraseDups_of_nodup (nodup_eraseDups ys)]
  rw [List.eraseDups_append, List.eraseDups_append, hsame]

namespace Entries

/-! ### Keys after writing -/

/-- Written or appended, a key takes the same place among the keys first seen. -/
theorem eraseDups_keys_insert (key : String) (value : α) (entries : Entries α)
    (rest : List String) :
    (keys (insert key value entries) ++ rest).eraseDups =
      (keys entries ++ key :: rest).eraseDups := by
  by_cases h : key ∈ keys entries
  · rw [keys_insert_of_mem h, eraseDups_append_cons_of_mem h]
  · rw [insert_of_not_mem h]
    simp [keys]

theorem find?_append (key : String) (first second : Entries α) :
    find? key (first ++ second) = (find? key first).or (find? key second) := by
  induction first with
  | nil => rfl
  | cons pair rest ih =>
      rw [List.cons_append, find?, find?]
      split
      · rfl
      · exact ih

theorem find?_append_of_not_mem {key : String} {first : Entries α} (h : key ∉ keys first)
    (second : Entries α) : find? key (first ++ second) = find? key second := by
  rw [find?_append, (find?_eq_none_iff key first).2 h, Option.none_or]

theorem insert_append_of_not_mem {key : String} {first : Entries α} (h : key ∉ keys first)
    (value : α) (second : Entries α) :
    insert key value (first ++ second) = first ++ insert key value second := by
  induction first with
  | nil => rfl
  | cons pair rest ih =>
      obtain ⟨hne, hrest⟩ := not_or.1 (mt List.mem_cons.2 h)
      rw [List.cons_append, insert, if_neg (Ne.symm hne), ih hrest, List.cons_append]

/-- Pairs with different keys are written as they are. -/
theorem ofPairs_of_nodup {pairs : Entries α} (h : (keys pairs).Nodup) :
    ofPairs pairs = pairs := by
  have append {before rest : Entries α} (h : (keys (before ++ rest)).Nodup) :
      rest.foldl (fun entries pair => insert pair.1 pair.2 entries) before = before ++ rest := by
    induction rest generalizing before with
    | nil => simp
    | cons pair rest ih =>
        have hsplit : before ++ pair :: rest = (before ++ [pair]) ++ rest := by simp
        have hfresh : pair.1 ∉ keys before := by
          rw [keys, List.map_append] at h
          intro hmem
          exact (List.nodup_append.1 h).2.2 pair.1 hmem pair.1 (by simp) rfl
        rw [List.foldl_cons, insert_of_not_mem hfresh, ih (hsplit ▸ h), ← hsplit]
  exact append h

/-- Whatever is written, no key is there twice. -/
theorem nodup_keys_ofPairs (pairs : List (String × α)) : (keys (ofPairs pairs)).Nodup :=
  List.foldlRecOn (motive := fun entries => (keys entries).Nodup) pairs _ List.nodup_nil
    fun _ hentries pair _ => nodup_keys_insert hentries pair.1 pair.2

theorem ofPairs_append_singleton (pairs : List (String × α)) (pair : String × α) :
    ofPairs (pairs ++ [pair]) = insert pair.1 pair.2 (ofPairs pairs) := by
  rw [ofPairs, List.foldl_append]
  rfl

/-- The keys are the names of the pairs, in the order in which they first occur. -/
theorem keys_ofPairs (pairs : List (String × α)) :
    keys (ofPairs pairs) = (pairs.map Prod.fst).eraseDups := by
  induction pairs using List.reverseRecOn with
  | nil => rfl
  | append_singleton pairs pair ih =>
      have hkeys := eraseDups_keys_insert pair.1 pair.2 (ofPairs pairs) []
      rw [List.append_nil, ← ofPairs_append_singleton, eraseDups_of_nodup (nodup_keys_ofPairs _),
        ih, eraseDups_eraseDups_append] at hkeys
      rw [hkeys, List.map_append]
      rfl

/-- What is found under a key is what was written last. -/
theorem find?_ofPairs (key : String) (pairs : List (String × α)) :
    find? key (ofPairs pairs) = find? key pairs.reverse := by
  induction pairs using List.reverseRecOn with
  | nil => rfl
  | append_singleton pairs pair ih =>
      rw [ofPairs_append_singleton, List.reverse_concat, find?]
      split
      next heq => rw [heq, find?_insert_self]
      next hne => rw [find?_insert_of_ne (Ne.symm hne), ih]

/-! ### Entries by their keys -/

/-- Entries are the list of their keys, each with what is found under it. -/
theorem eq_map_of_find? {entries : Entries α} (hnodup : (keys entries).Nodup)
    {value : String → α} (hfind : ∀ key ∈ keys entries, find? key entries = some (value key)) :
    entries = (keys entries).map fun key => (key, value key) := by
  induction entries with
  | nil => rfl
  | cons pair rest ih =>
      obtain ⟨hfresh, hrest⟩ := List.nodup_cons.1 hnodup
      have hpair : pair.2 = value pair.1 := by
        have := hfind pair.1 (by simp)
        simpa [find?] using this
      have htail : rest = (keys rest).map fun key => (key, value key) := by
        apply ih hrest
        intro key hkey
        have hne : pair.1 ≠ key := fun heq => hfresh (heq ▸ hkey)
        have := hfind key (by simp [hkey])
        simpa [find?, hne] using this
      rw [keys_cons, List.map_cons, ← htail, ← hpair]

theorem find?_isSome_iff (key : String) (entries : Entries α) :
    (find? key entries).isSome ↔ key ∈ keys entries := by
  rw [Option.isSome_iff_ne_none, Ne, find?_eq_none_iff, Classical.not_not]

theorem mem_of_find? {key : String} {value : α} {entries : Entries α}
    (h : find? key entries = some value) : (key, value) ∈ entries := by
  induction entries with
  | nil => simp at h
  | cons pair rest ih =>
      by_cases hk : pair.1 = key
      · simp only [find?, hk, if_true, Option.some.injEq] at h
        rw [← h, ← hk]
        exact List.mem_cons_self
      · simp only [find?, hk, if_false] at h
        exact List.mem_cons_of_mem pair (ih h)

theorem find?_of_mem {key : String} {value : α} {entries : Entries α}
    (hnodup : (keys entries).Nodup) (h : (key, value) ∈ entries) :
    find? key entries = some value := by
  induction entries with
  | nil => simp at h
  | cons pair rest ih =>
      obtain ⟨hfresh, hrest⟩ := List.nodup_cons.1 hnodup
      rcases List.mem_cons.1 h with rfl | h
      · exact if_pos rfl
      · have hkey : key ∈ keys rest := List.mem_map_of_mem (f := Prod.fst) h
        have hne : pair.1 ≠ key := fun heq => hfresh (heq ▸ hkey)
        rw [find?, if_neg hne, ih hrest h]

/-- Entries with the same keys in the same order are equal when the same is found under
each key. -/
theorem eq_of_find? [Inhabited α] {first second : Entries α}
    (hnodup : (keys first).Nodup) (hkeys : keys first = keys second)
    (hfind : ∀ key, find? key first = find? key second) : first = second := by
  have hmap {entries : Entries α} (hnodup : (keys entries).Nodup) :
      entries = (keys entries).map fun key => (key, (find? key entries).getD default) := by
    apply eq_map_of_find? hnodup
    intro key hkey
    obtain ⟨value, hvalue⟩ := Option.isSome_iff_exists.1 ((find?_isSome_iff key entries).2 hkey)
    rw [hvalue, Option.getD_some]
  calc first = (keys first).map fun key => (key, (find? key first).getD default) := hmap hnodup
    _ = (keys second).map fun key => (key, (find? key second).getD default) := by
        simp only [hkeys, hfind]
    _ = second := (hmap (hkeys ▸ hnodup)).symm

/-! ### Values under a function -/

universe v

variable {β : Type v} (f : α → β)

def mapValues (entries : Entries α) : Entries β :=
  entries.map fun entry => (entry.1, f entry.2)

theorem keys_mapValues (entries : Entries α) : keys (mapValues f entries) = keys entries := by
  rw [keys, mapValues, List.map_map]
  rfl

theorem find?_mapValues (key : String) (entries : Entries α) :
    find? key (mapValues f entries) = (find? key entries).map f := by
  induction entries with
  | nil => rfl
  | cons entry rest ih =>
      rw [mapValues, List.map_cons, find?, find?]
      split
      · rfl
      · exact ih

theorem insert_mapValues (key : String) (value : α) (entries : Entries α) :
    insert key (f value) (mapValues f entries) = mapValues f (insert key value entries) := by
  induction entries with
  | nil => rfl
  | cons entry rest ih =>
      rw [mapValues, List.map_cons, insert, insert]
      split
      · rfl
      · rw [← mapValues, ih]
        rfl

/-- Which of the pairs with equal keys counts does not depend on the values. -/
theorem ofPairs_mapValues (pairs : List (String × α)) :
    ofPairs (mapValues f pairs) = mapValues f (ofPairs pairs) := by
  induction pairs using List.reverseRecOn with
  | nil => rfl
  | append_singleton pairs pair ih =>
      have hlast : mapValues f (pairs ++ [pair]) = mapValues f pairs ++ [(pair.1, f pair.2)] :=
        List.map_append
      rw [hlast, ofPairs_append_singleton, ofPairs_append_singleton, ih]
      exact insert_mapValues f pair.1 pair.2 (ofPairs pairs)

end Entries

end DocWeave
