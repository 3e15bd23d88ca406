/-
Layered documents.  Merging documents from left to right gives what can also be read
off the whole stack at once: the newest document decides the kind, older documents
count as far back as they are of that kind, and a key holds what the layers hold
under it.
-/
import Mathlib
import DocWeave.Proofs.Value.ObjectKeys
import DocWeave.Value.Merge

namespace DocWeave.Value

/-! ### A stack of documents read at once -/

def memberKeys (v : Value) : List String :=
  Entries.keys (v.members?.getD [])

/-- The newest documents of a stack, as far back as all of them are of a kind. -/
def topLayers (kind : Kind) (docs : List Value) : List Value :=
  docs.rtakeWhile fun doc => doc.kind = kind

theorem topLayers_append_of_kind {kind : Kind} {doc : Value} (h : doc.kind = kind)
    (docs : List Value) : topLayers kind (docs ++ [doc]) = topLayers kind docs ++ [doc] :=
  List.rtakeWhile_concat_pos _ _ _ (by simpa using h)

theorem topLayers_ne_nil {kind : Kind} {docs : List Value} {doc : Value}
    (hlast : docs.getLast? = some doc) (h : doc.kind = kind) : topLayers kind docs ≠ [] := by
  obtain ⟨front, rfl⟩ := List.getLast?_eq_some_iff.1 hlast
  rw [topLayers_append_of_kind h]
  simp

theorem kind_of_mem_topLayers {kind : Kind} {docs : List Value} {doc : Value}
    (h : doc ∈ topLayers kind docs) : doc.kind = kind := by
  simpa using List.mem_rtakeWhile_imp h

theorem mem_of_mem_topLayers {kind : Kind} {docs : List Value} {doc : Value}
    (h : doc ∈ topLayers kind docs) : doc ∈ docs :=
  (List.rtakeWhile_suffix _ docs).mem h

theorem sum_sizeOf_column_le (key : String) (docs : List Value) :
    ((docs.filterMap (get? key)).map sizeOf).sum + docs.length ≤ (docs.map sizeOf).sum := by
  induction docs with
  | nil => simp
  | cons doc rest ih =>
      cases hmember : doc.get? key with
      | none =>
          have hpos : 0 < sizeOf doc := by
            cases doc with
            | null => decide
            | _ => exact Nat.lt_of_lt_of_le Nat.zero_lt_one (Nat.le_add_right 1 _)
          simp only [List.filterMap_cons, hmember, List.map_cons, List.sum_cons,
            List.length_cons]
          omega
      | some member =>
          have hlt := sizeOf_get?_lt hmember
          simp only [List.filterMap_cons, hmember, List.map_cons, List.sum_cons,
            List.length_cons]
          omega

/-- Going down to a key makes a stack smaller. -/
theorem sum_sizeOf_column_lt {docs : List Value} {members : Entries Value} (key : String)
    (hlast : docs.getLast? = some (.object members)) :
    (((topLayers .object docs).filterMap (get? key)).map sizeOf).sum <
      (docs.map sizeOf).sum := by
  have hcolumn := sum_sizeOf_column_le key (topLayers .object docs)
  have hsuffix : ((topLayers .object docs).map sizeOf).sum ≤ (docs.map sizeOf).sum := by
    conv_rhs =>
      rw [← List.rdropWhile_append_rtakeWhile (p := fun doc : Value => doc.kind = .object)
        (l := docs)]
    rw [List.map_append, List.sum_append_nat]
    exact Nat.le_add_left _ _
  have hlayers : topLayers .object docs ≠ [] := topLayers_ne_nil hlast rfl
  have hpos := List.length_pos_iff.2 hlayers
  omega

/-- What a stack of documents shows, oldest document first.  A scalar on top is all
there is.  Arrays on top follow one another.  Objects on top show every key in order
of first appearance, and under it what their values under it show. -/
def stacked (docs : List Value) : Value :=
  match _h : docs.getLast? with
  | none => .null
  | some (.array _) => .array ((topLayers .array docs).filterMap items?).flatten
  | some (.object _) =>
      .object (((topLayers .object docs).flatMap memberKeys).eraseDups.map fun key =>
        (key, stacked ((topLayers .object docs).filterMap (get? key))))
  | some scalar => scalar
termination_by (docs.map sizeOf).sum
decreasing_by exact sum_sizeOf_column_lt key _h

theorem stacked_of_array {docs : List Value} {items : List Value}
    (h : docs.getLast? = some (.array items)) :
    stacked docs = .array ((topLayers .array docs).filterMap items?).flatten := by
  rw [stacked]
  split <;> simp_all

theorem stacked_of_object {docs : List Value} {members : Entries Value}
    (h : docs.getLast? = some (.object members)) :
    stacked docs =
      .object (((topLayers .object docs).flatMap memberKeys).eraseDups.map fun key =>
        (key, stacked ((topLayers .object docs).filterMap (get? key)))) := by
  rw [stacked]
  split <;> simp_all

theorem stacked_of_scalar {docs : List Value} {scalar : Value}
    (h : docs.getLast? = some scalar) (hscalar : scalar.isContainer = false) :
    stacked docs = scalar := by
  cases scalar with
  | array items => simp [isContainer, kind] at hscalar
  | object members => simp [isContainer, kind] at hscalar
  | _ =>
      rw [stacked]
      split <;> simp_all

/-! ### Kinds -/

theorem kind_merge (older newer : Value) : (merge older newer).kind = newer.kind := by
  cases newer <;> cases older <;> simp [merge, kind]

/-- The newest document decides the kind. -/
theorem kind_mergeAll_append (docs : List Value) (doc : Value) :
    (mergeAll (docs ++ [doc])).kind = doc.kind := by
  by_cases h : docs = []
  · rw [h]
    rfl
  · rw [mergeAll_append_singleton h, kind_merge]

/-- Documents below the layers of the newest kind do not show. -/
theorem mergeAll_topLayers {kind : Kind} {docs : List Value} (h : topLayers kind docs ≠ []) :
    mergeAll docs = mergeAll (topLayers kind docs) := by
  induction docs using List.reverseRecOn with
  | nil => rfl
  | append_singleton docs doc ih =>
      have hkind : doc.kind = kind := by
        by_contra hne
        exact h (List.rtakeWhile_concat_neg _ _ _ (by simpa using hne))
      rw [topLayers_append_of_kind hkind]
      by_cases hbelow : topLayers kind docs = []
      · rw [hbelow]
        rcases List.eq_nil_or_concat' docs with rfl | ⟨front, top, rfl⟩
        · rfl
        · have htop : top.kind ≠ kind := by
            intro heq
            rw [topLayers_append_of_kind heq] at hbelow
            simp at hbelow
          rw [mergeAll_append_singleton (by simp)]
          apply merge_of_kind_ne
          rw [kind_mergeAll_append, hkind]
          exact htop
      · have hdocs : docs ≠ [] := by
          rintro rfl
          exact hbelow rfl
        rw [mergeAll_append_singleton hdocs, mergeAll_append_singleton hbelow, ih hbelow]

/-- Arrays follow one another. -/
theorem mergeAll_arrays {docs : List Value} (hne : docs ≠ [])
    (harrays : ∀ doc ∈ docs, doc.kind = .array) :
    mergeAll docs = .array (docs.filterMap items?).flatten := by
  induction docs using List.reverseRecOn with
  | nil => exact absurd rfl hne
  | append_singleton docs doc ih =>
      have hkind := harrays doc (by simp)
      cases doc with
      | array items =>
          by_cases hdocs : docs = []
          · rw [hdocs]
            simp [items?]
          · have hbelow := ih hdocs fun d hd => harrays d (by simp [hd])
            rw [mergeAll_append_singleton hdocs, hbelow, merge_array_array]
            simp [items?]
      | _ => simp [kind] at hkind

/-! ### Members -/

theorem keys_mergeMembers {first : Entries Value} (hnodup : (Entries.keys first).Nodup)
    (members : Entries Value) :
    Entries.keys (mergeMembers first members) =
      (Entries.keys first ++ Entries.keys members).eraseDups := by
  induction members generalizing first with
  | nil => rw [mergeMembers, Entries.keys_nil, List.append_nil, eraseDups_of_nodup hnodup]
  | cons member rest ih =>
      obtain ⟨key, value⟩ := member
      rw [mergeMembers]
      split <;>
        rw [ih (Entries.nodup_keys_insert hnodup _ _), Entries.eraseDups_keys_insert,
          Entries.keys_cons]

theorem nodup_keys_mergeMembers {first : Entries Value}
    (hnodup : (Entries.keys first).Nodup) (members : Entries Value) :
    (Entries.keys (mergeMembers first members)).Nodup := by
  induction members generalizing first with
  | nil => exact hnodup
  | cons member rest ih =>
      rw [mergeMembers]
      split <;> exact ih (Entries.nodup_keys_insert hnodup _ _)

/-- Under every key stands what the two objects hold there, merged if both hold
something. -/
theorem find?_mergeMembers (key : String) (first : Entries Value) {members : Entries Value}
    (hnodup : (Entries.keys members).Nodup) :
    Entries.find? key (mergeMembers first members) =
      Option.merge merge (Entries.find? key first) (Entries.find? key members) := by
  induction members generalizing first with
  | nil => simp [mergeMembers]
  | cons member rest ih =>
      obtain ⟨other, value⟩ := member
      obtain ⟨hfresh, hrest⟩ := List.nodup_cons.1 hnodup
      have hnone : Entries.find? other rest = none :=
        (Entries.find?_eq_none_iff other rest).2 hfresh
      by_cases hkey : key = other
      · subst hkey
        rw [mergeMembers]
        split
        next old hold => simp [ih _ hrest, hnone, hold, Entries.find?]
        next hold => simp [ih _ hrest, hnone, hold, Entries.find?]
      · rw [mergeMembers]
        split <;>
          simp [ih _ hrest, Entries.find?_insert_of_ne hkey, Entries.find?, Ne.symm hkey]

def mergeAll? (docs : List Value) : Option Value :=
  if docs.isEmpty then none else some (mergeAll docs)

theorem mergeAll?_append_singleton (docs : List Value) (doc : Value) :
    mergeAll? (docs ++ [doc]) = Option.merge merge (mergeAll? docs) (some doc) := by
  by_cases h : docs = []
  · subst h
    rfl
  · simp [mergeAll?, h, mergeAll_append_singleton h]

/-- The members of merged objects: every key in order of first appearance, and under
it the values that the objects hold there, merged in their order. -/
structure Members (docs : List Value) (members : Entries Value) : Prop where
  keys_eq : Entries.keys members = (docs.flatMap memberKeys).eraseDups
  nodup_keys : (Entries.keys members).Nodup
  find?_eq (key : String) :
    Entries.find? key members = mergeAll? (docs.filterMap (get? key))

theorem Members.singleton {members : Entries Value}
    (hnodup : (Entries.keys members).Nodup) : Members [.object members] members where
  keys_eq := by simp [memberKeys, members?, eraseDups_of_nodup hnodup]
  nodup_keys := hnodup
  find?_eq key := by
    cases h : Entries.find? key members <;> simp [get?, members?, h, mergeAll?]

/-- One more object is brought in. -/
theorem Members.append {docs : List Value} {members newer : Entries Value}
    (h : Members docs members) (hnodup : (Entries.keys newer).Nodup) :
    Members (docs ++ [.object newer]) (mergeMembers members newer) where
  keys_eq := by
    rw [keys_mergeMembers h.nodup_keys, h.keys_eq]
    simp [memberKeys, members?, eraseDups_eraseDups_append]
  nodup_keys := nodup_keys_mergeMembers h.nodup_keys newer
  find?_eq key := by
    rw [find?_mergeMembers key members hnodup, h.find?_eq key, List.filterMap_append]
    cases hnew : Entries.find? key newer with
    | none => simp [get?, members?, hnew]
    | some value => simp [get?, members?, hnew, mergeAll?_append_singleton]

/-- Objects merge to an object with the members they have together. -/
theorem mergeAll_objects {docs : List Value} (hne : docs ≠ [])
    (hobjects : ∀ doc ∈ docs, doc.kind = .object)
    (hdistinct : ∀ doc ∈ docs, doc.DistinctKeys) :
    ∃ members, mergeAll docs = .object members ∧ Members docs members := by
  induction docs using List.reverseRecOn with
  | nil => exact absurd rfl hne
  | append_singleton docs doc ih =>
      have hkind := hobjects doc (by simp)
      have hdoc := hdistinct doc (by simp)
      cases doc with
      | object newer =>
          have hnodup := ((objectKeys_object_iff newer).1 hdoc).1
          by_cases hdocs : docs = []
          · subst hdocs
            exact ⟨newer, rfl, .singleton hnodup⟩
          · obtain ⟨members, hmerged, hmembers⟩ := ih hdocs
              (fun d hd => hobjects d (by simp [hd])) (fun d hd => hdistinct d (by simp [hd]))
            refine ⟨mergeMembers members newer, ?_, hmembers.append hnodup⟩
            rw [mergeAll_append_singleton hdocs, hmerged, merge_object_object]
      | _ => simp [kind] at hkind

/-! ### Merging shows what the stack shows -/

/-- Layers of objects merge to the object of all their keys, each with the merge of
what stands under it. -/
theorem Members.eq_map {docs : List Value} {members : Entries Value}
    (h : Members docs members) :
    members = (docs.flatMap memberKeys).eraseDups.map fun key =>
      (key, mergeAll (docs.filterMap (get? key))) := by
  rw [← h.keys_eq]
  apply Entries.eq_map_of_find? h.nodup_keys
  intro key hkey
  have hsome := (Entries.find?_isSome_iff key members).2 hkey
  rw [h.find?_eq key] at hsome ⊢
  simp only [mergeAll?] at hsome ⊢
  split at hsome
  · simp at hsome
  next hcolumn => rw [if_neg hcolumn]

/-- Merging documents from left to right gives what the stack of them shows. -/
theorem mergeAll_eq_stacked (docs : List Value) (hdistinct : ∀ doc ∈ docs, doc.DistinctKeys) :
    mergeAll docs = stacked docs := by
  induction docs using stacked.induct with
  | case1 docs hlast =>
      rw [List.getLast?_eq_none_iff.1 hlast, stacked]
      rfl
  | case2 docs items hlast =>
      have hlayers : topLayers .array docs ≠ [] :=
        topLayers_ne_nil hlast rfl
      rw [stacked_of_array hlast, mergeAll_topLayers hlayers,
        mergeAll_arrays hlayers fun doc hdoc => kind_of_mem_topLayers hdoc]
  | case3 docs members hlast ih =>
      have hlayers : topLayers .object docs ≠ [] :=
        topLayers_ne_nil hlast rfl
      have hlayersDistinct : ∀ doc ∈ topLayers .object docs, doc.DistinctKeys :=
        fun doc hdoc => hdistinct doc (mem_of_mem_topLayers hdoc)
      obtain ⟨merged, hmerged, hmembers⟩ := mergeAll_objects hlayers
        (fun doc hdoc => kind_of_mem_topLayers hdoc) hlayersDistinct
      rw [stacked_of_object hlast, mergeAll_topLayers hlayers, hmerged, hmembers.eq_map]
      congr 1
      apply List.map_congr_left
      intro key _
      rw [ih key]
      intro value hvalue
      obtain ⟨doc, hdoc, hget⟩ := List.mem_filterMap.1 hvalue
      exact ObjectKeys.get? (hlayersDistinct doc hdoc) hget
  | case4 docs scalar harray hobject hlast =>
      obtain ⟨front, rfl⟩ := List.getLast?_eq_some_iff.1 hlast
      have hscalar : scalar.isContainer = false := by
        cases scalar <;> simp_all [isContainer, kind]
      rw [stacked_of_scalar hlast hscalar]
      by_cases hfront : front = []
      · rw [hfront]
        rfl
      · rw [mergeAll_append_singleton hfront, merge_of_scalar hscalar]

/-- A list, a scalar and a list again under one key: only the newest list shows, and
the keys stay in the order of the oldest object. -/
theorem mergeAll_eq_stacked_of_changing_kinds :
    let docs : List Value :=
      [.object [("a", .array [.null]), ("b", .object [("x", .null)])],
        .object [("b", .object [("y", .string "2")]), ("a", .bool false)],
        .object [("c", .null), ("a", .array [.bool true])]]
    (∀ doc ∈ docs, doc.DistinctKeys) ∧ mergeAll docs = stacked docs ∧
      mergeAll docs = .object [("a", .array [.bool true]),
        ("b", .object [("x", .null), ("y", .string "2")]), ("c", .null)] := by
  intro docs
  have hdistinct : ∀ doc ∈ docs, doc.DistinctKeys := by decide
  exact ⟨hdistinct, mergeAll_eq_stacked docs hdistinct, rfl⟩

end DocWeave.Value
