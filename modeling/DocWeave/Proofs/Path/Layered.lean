/-
Paths of names in a merged document.  Such a path leads to what the two documents hold at its
end, merged if both hold something.  What only the older one holds is still there unless the
newer one has anything but an object on the way.
-/
import DocWeave.Proofs.Path.Keys
import DocWeave.Proofs.Value.Layers

namespace DocWeave

namespace Value

variable {older newer : Value}

/-! ### One key -/

theorem get?_merge (hnewer : newer.DistinctKeys) (key : String) :
    (merge older newer).get? key =
      if newer.kind = .object then Option.merge merge (older.get? key) (newer.get? key)
      else none := by
  split
  next hkind =>
    by_cases holder : older.kind = .object
    · obtain ⟨first, rfl⟩ := kind_eq_object_iff.1 holder
      obtain ⟨members, rfl⟩ := kind_eq_object_iff.1 hkind
      rw [merge_object_object]
      exact find?_mergeMembers key first ((objectKeys_object_iff members).1 hnewer).1
    · have hne : older.kind ≠ newer.kind := by
        rw [hkind]
        exact holder
      rw [merge_of_kind_ne hne, get?_of_kind_ne holder, Option.merge_none_left]
  next hkind =>
    apply get?_of_kind_ne
    rw [kind_merge]
    exact hkind

/-! ### A path of keys -/

/-- How far a path of keys goes in a document: the last value that it comes to. -/
def farthest (v : Value) : List String → Value
  | [] => v
  | key :: rest =>
      match v.get? key with
      | some child => child.farthest rest
      | none => v

/-- What stands at the end of a path of keys in a merged document. -/
theorem atKeys?_merge (hnewer : newer.DistinctKeys) (keys : List String) :
    (merge older newer).atKeys? keys =
      if (newer.atKeys? keys).isSome ∨ (newer.farthest keys).kind = .object then
        Option.merge merge (older.atKeys? keys) (newer.atKeys? keys)
      else none := by
  induction keys generalizing older newer with
  | nil => simp
  | cons key rest ih =>
      rw [atKeys?_cons, atKeys?_cons, atKeys?_cons, get?_merge hnewer, farthest]
      by_cases hkind : newer.kind = .object
      · cases hchild : newer.get? key with
        | none => simp [hkind]
        | some child =>
            rw [if_pos hkind]
            cases older.get? key with
            | none => cases hend : child.atKeys? rest <;> simp [hend]
            | some other => simpa using ih (hnewer.get? hchild)
      · simp [hkind, get?_of_kind_ne hkind]

end Value

namespace Path

variable {newer : Value}

/-- A part of a path, from its start on, is the longest that leads anywhere in a document, and
this is where it leads. -/
structure LongestMatch (path front : Path) (root reached : Value) : Prop where
  starts : front <+: path
  found : Path.select front root = [reached]
  longest : ∀ other : Path, other <+: path → Path.select other root ≠ [] →
    other.length ≤ front.length

/-- A path of names has a longest part that leads somewhere, if only to the root. -/
theorem exists_longestMatch (names : List String) (root : Value) :
    ∃ front, LongestMatch (names.map .property) front root (root.farthest names) := by
  induction names generalizing root with
  | nil =>
      refine ⟨[], List.prefix_rfl, rfl, ?_⟩
      intro other hother _
      rw [List.prefix_nil.1 hother]
  | cons name rest ih =>
      rw [Value.farthest, List.map_cons]
      cases hchild : root.get? name with
      | none =>
          refine ⟨[], List.nil_prefix, rfl, ?_⟩
          intro other hother hfound
          rcases List.prefix_cons_iff.1 hother with rfl | ⟨inner, rfl, -⟩
          · exact Nat.le_refl 0
          · simp [Path.select_cons, Step.select, hchild] at hfound
      | some child =>
          have hinner (inner : Path) :
              Path.select (.property name :: inner) root = Path.select inner child := by
            simp [Path.select_cons, Step.select, hchild]
          obtain ⟨front, hfront⟩ := ih child
          refine ⟨.property name :: front, List.cons_prefix_cons.2 ⟨rfl, hfront.starts⟩, ?_, ?_⟩
          · rw [hinner]
            exact hfront.found
          · intro other hother hfound
            rcases List.prefix_cons_iff.1 hother with rfl | ⟨inner, rfl, hstarts⟩
            · exact Nat.zero_le _
            · rw [hinner] at hfound
              exact Nat.succ_le_succ (hfront.longest inner hstarts hfound)

/-- A path of names leads in a merged document to what both documents hold at its end, merged;
to what the newer one alone holds; to what the older one alone holds, if the newer one has an
object where the path can be followed no further; and else to nothing.  Two arrays at its end
follow one another. -/
theorem select_merge_of_names (older : Value) (hnewer : newer.DistinctKeys)
    (names : List String) :
    let path : Path := names.map .property
    let merged := Value.merge older newer
    (∀ x y, path.select older = [x] → path.select newer = [y] →
        path.select merged = [Value.merge x y]) ∧
      (path.select older = [] → path.select newer ≠ [] →
        path.select merged = path.select newer) ∧
      (∀ x, path.select older = [x] → path.select newer = [] →
        ∃ front reached, LongestMatch path front newer reached ∧
          path.select merged = if reached.kind = .object then [x] else []) ∧
      (path.select older = [] → path.select newer = [] → path.select merged = []) ∧
      ∀ xs ys, path.select older = [.array xs] → path.select newer = [.array ys] →
        Path.select (path ++ [.wildcard]) merged = xs ++ ys := by
  intro path merged
  have hselect (root : Value) : path.select root = (root.atKeys? names).toList :=
    Path.select_map_property names root
  have hmerged : merged.atKeys? names = _ := Value.atKeys?_merge hnewer names
  have hboth {x y : Value} (hx : path.select older = [x]) (hy : path.select newer = [y]) :
      path.select merged = [Value.merge x y] := by
    rw [hselect, Option.toList_eq_singleton_iff] at hx hy ⊢
    simpa [hx, hy] using hmerged
  refine ⟨fun x y hx hy => hboth hx hy, ?_, ?_, ?_, ?_⟩
  · intro hx hy
    rw [hselect, Option.toList_eq_nil_iff] at hx
    rw [hselect, Ne, Option.toList_eq_nil_iff] at hy
    obtain ⟨y, hy⟩ := Option.ne_none_iff_exists'.1 hy
    rw [hselect, hselect, hmerged, hx, hy]
    rfl
  · intro x hx hy
    rw [hselect, Option.toList_eq_singleton_iff] at hx
    rw [hselect, Option.toList_eq_nil_iff] at hy
    obtain ⟨front, hfront⟩ := exists_longestMatch names newer
    refine ⟨front, newer.farthest names, hfront, ?_⟩
    rw [hselect, hmerged, hx, hy]
    by_cases hkind : (newer.farthest names).kind = .object
    · simp [hkind]
    · simp [hkind]
  · intro hx hy
    rw [hselect, Option.toList_eq_nil_iff] at hx hy ⊢
    simp [merged, hmerged, hx, hy]
  · intro xs ys hx hy
    rw [Path.select_append, hboth hx hy]
    simp [Path.select, Step.select]

/-- Two arrays under shared keys, a member that only the older document has, and one that a
text of the newer document hides. -/
theorem select_merge_of_names_of_hidden_member :
    let older : Value := .object [("a", .object [("k", .null), ("l", .array [.bool true])]),
      ("b", .object [("x", .null)])]
    let newer : Value := .object [("b", .string "s"), ("a", .object [("l", .array [.null])])]
    let merged := Value.merge older newer
    newer.DistinctKeys ∧
      Path.select [.property "a", .property "l", .wildcard] merged = [.bool true, .null] ∧
      (∃ front reached, LongestMatch [.property "a", .property "k"] front newer reached ∧
        Path.select [.property "a", .property "k"] merged =
          if reached.kind = .object then [.null] else []) ∧
      Path.select [.property "a", .property "k"] merged = [.null] ∧
      (∃ front reached, LongestMatch [.property "b", .property "x"] front newer reached ∧
        Path.select [.property "b", .property "x"] merged =
          if reached.kind = .object then [.null] else []) ∧
      Path.select [.property "b", .property "x"] merged = [] := by
  intro older newer merged
  have hnewer : newer.DistinctKeys := by decide
  obtain ⟨-, -, -, -, harrays⟩ := select_merge_of_names older hnewer ["a", "l"]
  obtain ⟨-, -, hshown, -⟩ := select_merge_of_names older hnewer ["a", "k"]
  obtain ⟨-, -, hhidden, -⟩ := select_merge_of_names older hnewer ["b", "x"]
  exact ⟨hnewer, harrays [.bool true] [.null] rfl rfl, hshown .null rfl rfl, rfl,
    hhidden .null rfl rfl, rfl⟩

end Path

end DocWeave
