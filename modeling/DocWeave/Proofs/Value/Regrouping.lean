/-
Merging three documents in either grouping.  The two groupings differ only where a value of
another kind stands between two arrays or two objects: merged first with the oldest, it hides
what the oldest holds; merged first with the newest, it is gone before the oldest comes in.
-/
import DocWeave.Proofs.Path.Keys
import DocWeave.Proofs.Value.Layers

namespace DocWeave

namespace Value

/-! ### What stands in the way -/

/-- A value stands between two others that would combine without it: they are both arrays or
both objects, it is of another kind, and the first adds something to the last. -/
structure Separates (between first last : Value) : Prop where
  kind_eq : first.kind = last.kind
  isContainer : last.isContainer
  kind_ne : between.kind ≠ last.kind
  merge_ne : merge first last ≠ last

/-- At the end of a path of keys, which leads through objects in all three documents, the
value of the middle one separates the values of the others. -/
def Barrier (first middle last : Value) (keys : List String) : Prop :=
  ∃ x y z, first.atKeys? keys = some x ∧ middle.atKeys? keys = some y ∧
    last.atKeys? keys = some z ∧ y.Separates x z

variable {first middle last : Value}

theorem barrier_nil_iff : Barrier first middle last [] ↔ middle.Separates first last := by
  simp [Barrier]

theorem barrier_cons_iff {key : String} {rest : List String} :
    Barrier first middle last (key :: rest) ↔
      ∃ x y z, first.get? key = some x ∧ middle.get? key = some y ∧ last.get? key = some z ∧
        Barrier x y z rest := by
  constructor
  · rintro ⟨x, y, z, hx, hy, hz, hseparates⟩
    obtain ⟨childX, hfirst, hx⟩ := atKeys?_cons_eq_some_iff.1 hx
    obtain ⟨childY, hmiddle, hy⟩ := atKeys?_cons_eq_some_iff.1 hy
    obtain ⟨childZ, hlast, hz⟩ := atKeys?_cons_eq_some_iff.1 hz
    exact ⟨childX, childY, childZ, hfirst, hmiddle, hlast, x, y, z, hx, hy, hz, hseparates⟩
  · rintro ⟨childX, childY, childZ, hfirst, hmiddle, hlast, x, y, z, hx, hy, hz, hseparates⟩
    exact ⟨x, y, z, atKeys?_cons_eq_some_iff.2 ⟨childX, hfirst, hx⟩,
      atKeys?_cons_eq_some_iff.2 ⟨childY, hmiddle, hy⟩,
      atKeys?_cons_eq_some_iff.2 ⟨childZ, hlast, hz⟩, hseparates⟩

/-- Keys lead into all three documents only when all three are objects. -/
theorem kinds_of_barrier_cons {key : String} {rest : List String}
    (h : Barrier first middle last (key :: rest)) :
    first.kind = .object ∧ middle.kind = .object ∧ last.kind = .object := by
  obtain ⟨x, y, z, hfirst, hmiddle, hlast, -⟩ := barrier_cons_iff.1 h
  exact ⟨kind_of_get? hfirst, kind_of_get? hmiddle, kind_of_get? hlast⟩

/-! ### Documents of which one is no object -/

/-- Documents that combine with a change are containers of one kind. -/
theorem separates_iff (h : middle.kind ≠ last.kind) :
    middle.Separates first last ↔ merge first last ≠ last := by
  constructor
  · exact Separates.merge_ne
  · intro hne
    refine ⟨?_, ?_, h, hne⟩
    · by_contra hkind
      exact hne (merge_of_kind_ne hkind)
    · by_contra hscalar
      exact hne (merge_of_scalar (by simpa using hscalar) first)

/-- A middle document of another kind than the last is lost in one grouping, and hides the
first one in the other. -/
theorem merge_assoc_iff_of_kind_ne (h : middle.kind ≠ last.kind) :
    merge (merge first middle) last = merge first (merge middle last) ↔
      merge first last = last := by
  have hleft : merge (merge first middle) last = last := by
    apply merge_of_kind_ne
    rw [kind_merge]
    exact h
  rw [hleft, merge_of_kind_ne h]
  exact eq_comm

/-- A first document of another kind than the middle one does not show in either grouping. -/
theorem merge_assoc_of_kind_ne (hfirst : first.kind ≠ middle.kind)
    (hlast : middle.kind = last.kind) :
    merge (merge first middle) last = merge first (merge middle last) := by
  have hinner : first.kind ≠ (merge middle last).kind := by
    rw [kind_merge, ← hlast]
    exact hfirst
  rw [merge_of_kind_ne hfirst, merge_of_kind_ne hinner]

/-- Documents of one kind other than objects can be regrouped. -/
theorem merge_assoc_of_kind_eq (hfirst : first.kind = middle.kind)
    (hlast : middle.kind = last.kind) (hobject : last.kind ≠ .object) :
    merge (merge first middle) last = merge first (merge middle last) := by
  cases last with
  | object members => exact absurd rfl hobject
  | array zs =>
      cases middle with
      | array ys =>
          cases first with
          | array xs => simp only [merge_array_array, List.append_assoc]
          | _ => cases hfirst
      | _ => cases hlast
  | _ => simp [merge]

theorem merge_assoc_iff_of_not_objects
    (h : ¬ (first.kind = .object ∧ middle.kind = .object ∧ last.kind = .object)) :
    merge (merge first middle) last = merge first (merge middle last) ↔
      ¬ ∃ keys, Barrier first middle last keys := by
  have hroot : (∃ keys, Barrier first middle last keys) ↔ middle.Separates first last := by
    constructor
    · rintro ⟨keys, hbarrier⟩
      cases keys with
      | nil => exact barrier_nil_iff.1 hbarrier
      | cons key rest => exact absurd (kinds_of_barrier_cons hbarrier) h
    · intro hseparates
      exact ⟨[], barrier_nil_iff.2 hseparates⟩
  rw [hroot]
  by_cases hlast : middle.kind = last.kind
  · refine iff_of_true ?_ fun hseparates => hseparates.kind_ne hlast
    by_cases hfirst : first.kind = middle.kind
    · apply merge_assoc_of_kind_eq hfirst hlast
      intro hobject
      exact h ⟨hfirst.trans (hlast.trans hobject), hlast.trans hobject, hobject⟩
    · exact merge_assoc_of_kind_ne hfirst hlast
  · rw [merge_assoc_iff_of_kind_ne hlast, separates_iff hlast, Classical.not_not]

/-! ### Three objects -/

variable {a b c : Entries Value}

theorem keys_mergeMembers_assoc (ha : (Entries.keys a).Nodup) (hb : (Entries.keys b).Nodup) :
    Entries.keys (mergeMembers (mergeMembers a b) c) =
      Entries.keys (mergeMembers a (mergeMembers b c)) := by
  calc Entries.keys (mergeMembers (mergeMembers a b) c)
      = ((Entries.keys a ++ Entries.keys b).eraseDups ++ Entries.keys c).eraseDups := by
        rw [keys_mergeMembers (nodup_keys_mergeMembers ha b), keys_mergeMembers ha]
    _ = (Entries.keys a ++ (Entries.keys b ++ Entries.keys c).eraseDups).eraseDups := by
        rw [eraseDups_eraseDups_append, eraseDups_append_eraseDups, List.append_assoc]
    _ = Entries.keys (mergeMembers a (mergeMembers b c)) := by
        rw [keys_mergeMembers ha, keys_mergeMembers hb]

/-- Objects can be regrouped exactly when the values can that all three hold under a key. -/
theorem mergeMembers_assoc_iff (ha : (Entries.keys a).Nodup) (hb : (Entries.keys b).Nodup)
    (hc : (Entries.keys c).Nodup) :
    mergeMembers (mergeMembers a b) c = mergeMembers a (mergeMembers b c) ↔
      ∀ key x y z, Entries.find? key a = some x → Entries.find? key b = some y →
        Entries.find? key c = some z → merge (merge x y) z = merge x (merge y z) := by
  have hleft (key : String) : Entries.find? key (mergeMembers (mergeMembers a b) c) =
      Option.merge merge (Option.merge merge (Entries.find? key a) (Entries.find? key b))
        (Entries.find? key c) := by
    rw [find?_mergeMembers key _ hc, find?_mergeMembers key a hb]
  have hright (key : String) : Entries.find? key (mergeMembers a (mergeMembers b c)) =
      Option.merge merge (Entries.find? key a)
        (Option.merge merge (Entries.find? key b) (Entries.find? key c)) := by
    rw [find?_mergeMembers key a (nodup_keys_mergeMembers hb c), find?_mergeMembers key b hc]
  constructor
  · intro h key x y z hx hy hz
    have hkey := congrArg (Entries.find? key) h
    rw [hleft, hright, hx, hy, hz] at hkey
    simpa using hkey
  · intro h
    apply Entries.eq_of_find? (nodup_keys_mergeMembers (nodup_keys_mergeMembers ha b) c)
      (keys_mergeMembers_assoc ha hb)
    intro key
    rw [hleft, hright]
    cases hx : Entries.find? key a with
    | none => simp
    | some x =>
        cases hy : Entries.find? key b with
        | none => simp
        | some y =>
            cases hz : Entries.find? key c with
            | none => simp
            | some z => simp [h key x y z hx hy hz]

/-- A barrier in three objects is one in what they hold under a key. -/
theorem exists_barrier_object_iff :
    (∃ keys, Barrier (.object a) (.object b) (.object c) keys) ↔
      ∃ key x y z, Entries.find? key a = some x ∧ Entries.find? key b = some y ∧
        Entries.find? key c = some z ∧ ∃ keys, Barrier x y z keys := by
  constructor
  · rintro ⟨keys, hbarrier⟩
    cases keys with
    | nil => exact absurd rfl (barrier_nil_iff.1 hbarrier).kind_ne
    | cons key rest =>
        obtain ⟨x, y, z, hx, hy, hz, hrest⟩ := barrier_cons_iff.1 hbarrier
        exact ⟨key, x, y, z, hx, hy, hz, rest, hrest⟩
  · rintro ⟨key, x, y, z, hx, hy, hz, rest, hrest⟩
    exact ⟨key :: rest, barrier_cons_iff.2 ⟨x, y, z, hx, hy, hz, hrest⟩⟩

/-! ### Regrouping -/

/-- Three documents merge to the same document in both groupings, with all keys in the same
order, exactly when there is no barrier between them at the end of any path of keys. -/
theorem merge_assoc_iff_no_barrier (hfirst : first.DistinctKeys) (hmiddle : middle.DistinctKeys)
    (hlast : last.DistinctKeys) :
    merge (merge first middle) last = merge first (merge middle last) ↔
      ¬ ∃ keys, Barrier first middle last keys := by
  -- with three objects the question passes to what they share; anything else ends it
  induction hlast generalizing first middle with
  | @object c hc hinside ih =>
      by_cases hobjects : first.kind = .object ∧ middle.kind = .object
      · obtain ⟨a, rfl⟩ := kind_eq_object_iff.1 hobjects.1
        obtain ⟨b, rfl⟩ := kind_eq_object_iff.1 hobjects.2
        have ha := ((objectKeys_object_iff a).1 hfirst).1
        have hb := ((objectKeys_object_iff b).1 hmiddle).1
        simp only [merge_object_object, object.injEq]
        rw [mergeMembers_assoc_iff ha hb hc, exists_barrier_object_iff]
        have hkey {key : String} {x y z : Value} (hx : Entries.find? key a = some x)
            (hy : Entries.find? key b = some y) (hz : Entries.find? key c = some z) :
            merge (merge x y) z = merge x (merge y z) ↔ ¬ ∃ keys, Barrier x y z keys :=
          ih (key, z) (Entries.mem_of_find? hz) (hfirst.get? hx) (hmiddle.get? hy)
        constructor
        · rintro h ⟨key, x, y, z, hx, hy, hz, hbarrier⟩
          exact (hkey hx hy hz).1 (h key x y z hx hy hz) hbarrier
        · intro h key x y z hx hy hz
          exact (hkey hx hy hz).2 fun hbarrier => h ⟨key, x, y, z, hx, hy, hz, hbarrier⟩
      · exact merge_assoc_iff_of_not_objects fun h => hobjects ⟨h.1, h.2.1⟩
  | _ =>
      apply merge_assoc_iff_of_not_objects
      rintro ⟨-, -, hkind⟩
      cases hkind

/-- Two objects with the same keys, a truth value between them: the first adds nothing to the
last but the order of its keys, and that is enough for the groupings to differ. -/
theorem merge_assoc_iff_no_barrier_of_reordered_keys :
    let first : Value := .object [("o", .object [("k", .null), ("j", .null)]), ("l", .array [])]
    let middle : Value := .object [("l", .array [.null]), ("o", .bool true)]
    let last : Value := .object [("o", .object [("j", .string "y"), ("k", .string "x")])]
    first.DistinctKeys ∧ middle.DistinctKeys ∧ last.DistinctKeys ∧
      Barrier first middle last ["o"] ∧
      merge (merge first middle) last ≠ merge first (merge middle last) := by
  intro first middle last
  have hfirst : first.DistinctKeys := by decide
  have hmiddle : middle.DistinctKeys := by decide
  have hlast : last.DistinctKeys := by decide
  have hbarrier : Barrier first middle last ["o"] := by
    refine ⟨_, _, _, rfl, rfl, rfl, rfl, rfl, by decide, ?_⟩
    simp [mergeMembers, Entries.find?, Entries.insert]
  refine ⟨hfirst, hmiddle, hlast, hbarrier, ?_⟩
  intro hsame
  exact (merge_assoc_iff_no_barrier hfirst hmiddle hlast).1 hsame ⟨["o"], hbarrier⟩

end Value

end DocWeave
