/-
Independent documents.  Documents that agree wherever two of them hold something lose nothing
when they are merged, and the order in which they are merged shows only in the order of keys.
-/
import DocWeave.Proofs.Value.Equality
import DocWeave.Proofs.Value.Layers

namespace DocWeave.Value

variable {eq : Number → Number → Bool}

/-! ### Compatible documents -/

/-- Two documents agree: where both have a value at the end of a path of keys, the two values
are both objects, or the same scalar, given when numbers are equal. -/
def Compatible (eq : Number → Number → Bool) (first second : Value) : Prop :=
  ∀ keys x y, first.atKeys? keys = some x → second.atKeys? keys = some y →
    (x.kind = .object ∧ y.kind = .object) ∨
      (x.isContainer = false ∧ y.isContainer = false ∧ x.sameBy eq y)

theorem Compatible.root {x y : Value} (h : Compatible eq x y) :
    (x.kind = .object ∧ y.kind = .object) ∨
      (x.isContainer = false ∧ y.isContainer = false ∧ x.sameBy eq y) :=
  h [] x y rfl rfl

theorem Compatible.symm (hsymm : ∀ m n, eq m n → eq n m) {first second : Value}
    (h : Compatible eq first second) : Compatible eq second first := by
  intro keys y x hy hx
  rcases h keys x y hx hy with ⟨hkindX, hkindY⟩ | ⟨hscalarX, hscalarY, hsame⟩
  · exact Or.inl ⟨hkindY, hkindX⟩
  · exact Or.inr ⟨hscalarY, hscalarX, sameBy_symm_of_scalar hsymm hscalarX hsame⟩

theorem Compatible.get? {first second x y : Value} {key : String}
    (h : Compatible eq first second) (hx : first.get? key = some x)
    (hy : second.get? key = some y) : Compatible eq x y := by
  intro keys u w hu hw
  exact h (key :: keys) u w (atKeys?_cons_eq_some_iff.2 ⟨x, hx, hu⟩)
    (atKeys?_cons_eq_some_iff.2 ⟨y, hy, hw⟩)

/-- Documents without doubles that are not a number agree in the one sense if they do in the
other. -/
theorem Compatible.same_of_alike {first second : Value} (h : Compatible Number.alike first second)
    (hfirst : first.same first) : Compatible Number.same first second := by
  intro keys x y hx hy
  refine (h keys x y hx hy).imp_right fun ⟨hscalarX, hscalarY, halike⟩ => ?_
  exact ⟨hscalarX, hscalarY,
    same_of_alike_of_scalar hscalarX halike (sameBy_self_of_atKeys? hfirst hx)⟩

theorem compatible_of_sameBy {x y : Value} (hx : x.isContainer = false)
    (hy : y.isContainer = false) (h : x.sameBy eq y) : Compatible eq x y := by
  intro keys u w hu hw
  cases keys with
  | nil =>
      cases hu
      cases hw
      exact Or.inr ⟨hx, hy, h⟩
  | cons key rest =>
      obtain ⟨child, hchild, -⟩ := atKeys?_cons_eq_some_iff.1 hu
      have hkind := kind_of_get? hchild
      simp [isContainer, hkind] at hx

theorem compatible_objects {members others : Entries Value}
    (h : ∀ member ∈ members, ∀ other, Entries.find? member.1 others = some other →
      Compatible eq member.2 other) : Compatible eq (.object members) (.object others) := by
  intro keys u w hu hw
  cases keys with
  | nil =>
      cases hu
      cases hw
      exact Or.inl ⟨rfl, rfl⟩
  | cons key rest =>
      obtain ⟨x, hx, hu⟩ := atKeys?_cons_eq_some_iff.1 hu
      obtain ⟨y, hy, hw⟩ := atKeys?_cons_eq_some_iff.1 hw
      exact h (key, x) (Entries.mem_of_find? hx) y hy rest u w hu hw

/-! ### Independent documents -/

/-- Documents none of which disagrees with another, each of them with distinct keys and equal
to itself, given when numbers are equal. -/
structure Independent (eq : Number → Number → Bool) (docs : List Value) : Prop where
  symm (m n : Number) (h : eq m n) : eq n m
  distinctKeys : ∀ doc ∈ docs, doc.DistinctKeys
  sameBy_self : ∀ doc ∈ docs, doc.sameBy eq doc
  compatible : docs.Pairwise (Compatible eq)

variable {docs others : List Value}

theorem Independent.perm (h : Independent eq docs) (hperm : others.Perm docs) :
    Independent eq others where
  symm := h.symm
  distinctKeys doc hdoc := h.distinctKeys doc (hperm.mem_iff.1 hdoc)
  sameBy_self doc hdoc := h.sameBy_self doc (hperm.mem_iff.1 hdoc)
  compatible := (hperm.pairwise_iff (Compatible.symm h.symm)).2 h.compatible

/-- What independent documents hold under a key is independent. -/
theorem Independent.column (h : Independent eq docs) (key : String) :
    Independent eq (docs.filterMap (get? key)) where
  symm := h.symm
  distinctKeys value hvalue := by
    obtain ⟨doc, hdoc, hget⟩ := List.mem_filterMap.1 hvalue
    exact (h.distinctKeys doc hdoc).get? hget
  sameBy_self value hvalue := by
    obtain ⟨doc, hdoc, hget⟩ := List.mem_filterMap.1 hvalue
    exact sameBy_self_of_get? (h.sameBy_self doc hdoc) hget
  compatible := by
    rw [List.pairwise_filterMap]
    refine h.compatible.imp ?_
    intro first second hcompatible x hx y hy
    exact hcompatible.get? hx hy

/-- If one of the documents is no object, all of them are equal. -/
theorem Independent.sameBy_of_mem (h : Independent eq docs) {x y : Value} (hx : x ∈ docs)
    (hy : y ∈ docs) (hkind : x.kind ≠ .object) : x.sameBy eq y := by
  have : Std.Symm (Compatible eq) := ⟨fun _ _ => Compatible.symm h.symm⟩
  by_cases heq : x = y
  · rw [← heq]
    exact h.sameBy_self x hx
  · rcases (h.compatible.forall hx hy heq).root with ⟨hobject, -⟩ | ⟨-, -, hsame⟩
    · exact absurd hobject hkind
    · exact hsame

/-- Unless they are all objects, the newest of the documents is what they merge to. -/
theorem Independent.mergeAll_mem (h : Independent eq docs)
    (hobjects : ¬ ∀ doc ∈ docs, doc.kind = .object) :
    mergeAll docs ∈ docs ∧ (mergeAll docs).kind ≠ .object := by
  rcases List.eq_nil_or_concat' docs with rfl | ⟨front, top, rfl⟩
  · exact absurd (by simp) hobjects
  · have hbelow : ∀ doc ∈ front, Compatible eq doc top := by
      intro doc hdoc
      exact (List.pairwise_append.1 h.compatible).2.2 doc hdoc top (by simp)
    have htop : top.kind ≠ .object := by
      intro hkind
      apply hobjects
      intro doc hdoc
      rcases List.mem_append.1 hdoc with hdoc | hdoc
      · rcases (hbelow doc hdoc).root with ⟨hobject, -⟩ | ⟨-, hscalar, -⟩
        · exact hobject
        · simp [isContainer, hkind] at hscalar
      · rw [List.mem_singleton.1 hdoc]
        exact hkind
    have hmerged : mergeAll (front ++ [top]) = top := by
      by_cases hfront : front = []
      · rw [hfront]
        rfl
      · obtain ⟨doc, hdoc⟩ := List.exists_mem_of_ne_nil front hfront
        rw [mergeAll_append_singleton hfront]
        rcases (hbelow doc hdoc).root with ⟨-, hobject⟩ | ⟨-, hscalar, -⟩
        · exact absurd hobject htop
        · exact merge_of_scalar hscalar (mergeAll front)
    rw [hmerged]
    exact ⟨by simp, htop⟩

theorem Independent.objects (h : Independent eq docs) {doc : Value} (hdoc : doc ∈ docs)
    (hkind : doc.kind = .object) : ∀ other ∈ docs, other.kind = .object := by
  intro other hother
  by_contra hne
  exact hne ((kind_eq_of_sameBy (h.sameBy_of_mem hother hdoc hne)).trans hkind)

/-! ### Any order of merging -/

theorem mergeAll?_eq_some_iff {merged : Value} :
    mergeAll? docs = some merged ↔ docs ≠ [] ∧ mergeAll docs = merged := by
  cases docs <;> simp [mergeAll?]

/-- The same objects in another order have as many members together. -/
theorem Members.length_eq {members mixed : Entries Value} (hmembers : Members docs members)
    (hmixed : Members others mixed) (hperm : others.Perm docs) :
    mixed.length = members.length := by
  have hkeys : (Entries.keys mixed).Perm (Entries.keys members) := by
    rw [List.perm_ext_iff_of_nodup hmixed.nodup_keys hmembers.nodup_keys]
    intro key
    rw [hmixed.keys_eq, hmembers.keys_eq, List.mem_eraseDups, List.mem_eraseDups]
    exact (hperm.flatMap_right memberKeys).mem_iff
  simpa [Entries.keys] using hkeys.length_eq

/-- Objects merge to equal objects in both orders if the values under each key do. -/
theorem Members.sameBy_of_perm {members mixed : Entries Value} (hmembers : Members docs members)
    (hmixed : Members others mixed) (hperm : others.Perm docs)
    (hcolumns : ∀ key, (mergeAll (others.filterMap (Value.get? key))).sameBy eq
      (mergeAll (docs.filterMap (Value.get? key)))) :
    (Value.object mixed).sameBy eq (.object members) := by
  rw [sameBy_object_iff]
  refine ⟨hmembers.length_eq hmixed hperm, ?_⟩
  rintro ⟨key, value⟩ hmember
  have hfind := Entries.find?_of_mem hmixed.nodup_keys hmember
  rw [hmixed.find?_eq key] at hfind
  obtain ⟨hcolumn, rfl⟩ := mergeAll?_eq_some_iff.1 hfind
  have hsize := (hperm.filterMap (Value.get? key)).length_eq
  refine ⟨mergeAll (docs.filterMap (Value.get? key)), ?_, hcolumns key⟩
  rw [hmembers.find?_eq key, mergeAll?_eq_some_iff]
  refine ⟨?_, rfl⟩
  rwa [← List.length_pos_iff, ← hsize, List.length_pos_iff]

/-- Merging independent documents in another order gives an equal document. -/
theorem Independent.sameBy_of_perm {docs others : List Value} (h : Independent eq docs)
    (hperm : others.Perm docs) : (mergeAll others).sameBy eq (mergeAll docs) := by
  have hothers := h.perm hperm
  by_cases hnil : docs = []
  · subst hnil
    rw [hperm.eq_nil]
    rfl
  by_cases hobjects : ∀ doc ∈ docs, doc.kind = .object
  · have hmixedObjects : ∀ doc ∈ others, doc.kind = .object :=
      fun doc hdoc => hobjects doc (hperm.mem_iff.1 hdoc)
    have hmixedNil : others ≠ [] := by
      rintro rfl
      exact hnil hperm.symm.eq_nil
    obtain ⟨members, hmerged, hmembers⟩ := mergeAll_objects hnil hobjects h.distinctKeys
    obtain ⟨mixed, hmixed, hmixedMembers⟩ :=
      mergeAll_objects hmixedNil hmixedObjects hothers.distinctKeys
    rw [hmerged, hmixed]
    -- what stands under a key is a smaller list of independent documents in two orders
    exact hmembers.sameBy_of_perm hmixedMembers hperm fun key =>
      (h.column key).sameBy_of_perm (hperm.filterMap (Value.get? key))
  · have hmixedObjects : ¬ ∀ doc ∈ others, doc.kind = .object := by
      intro hall
      exact hobjects fun doc hdoc => hall doc (hperm.mem_iff.2 hdoc)
    obtain ⟨hmerged, -⟩ := h.mergeAll_mem hobjects
    obtain ⟨hmixed, hkind⟩ := hothers.mergeAll_mem hmixedObjects
    exact h.sameBy_of_mem (hperm.mem_iff.1 hmixed) hmerged hkind
termination_by (docs.map sizeOf).sum
decreasing_by
  have hcolumn := sum_sizeOf_column_le key docs
  have hpos := List.length_pos_iff.2 hnil
  omega

/-- A scalar or an array that one of the documents holds stays where it is. -/
theorem Independent.exists_sameBy_at (h : Independent eq docs) {doc x : Value} (hdoc : doc ∈ docs)
    {keys : List String} (hx : doc.atKeys? keys = some x) (hkind : x.kind ≠ .object) :
    ∃ y, (mergeAll docs).atKeys? keys = some y ∧ y.sameBy eq x := by
  induction keys generalizing docs doc with
  | nil =>
      obtain rfl : doc = x := Option.some.inj hx
      have hobjects : ¬ ∀ other ∈ docs, other.kind = .object := fun hall => hkind (hall doc hdoc)
      obtain ⟨hmerged, hmergedKind⟩ := h.mergeAll_mem hobjects
      exact ⟨mergeAll docs, rfl, h.sameBy_of_mem hmerged hdoc hmergedKind⟩
  | cons key rest ih =>
      obtain ⟨child, hchild, hrest⟩ := atKeys?_cons_eq_some_iff.1 hx
      have hcolumn : child ∈ docs.filterMap (Value.get? key) :=
        List.mem_filterMap.2 ⟨doc, hdoc, hchild⟩
      obtain ⟨y, hy, hsame⟩ := ih (h.column key) hcolumn hrest
      obtain ⟨members, hmerged, hmembers⟩ := mergeAll_objects (List.ne_nil_of_mem hdoc)
        (h.objects hdoc (kind_of_get? hchild)) h.distinctKeys
      refine ⟨y, atKeys?_cons_eq_some_iff.2 ⟨_, ?_, hy⟩, hsame⟩
      rw [hmerged, get?_object, hmembers.find?_eq key, mergeAll?_eq_some_iff]
      exact ⟨List.ne_nil_of_mem hcolumn, rfl⟩

theorem independent_alike (hdistinct : ∀ doc ∈ docs, doc.DistinctKeys)
    (hcompatible : docs.Pairwise (Compatible Number.alike)) : Independent Number.alike docs where
  symm _ _ := Number.alike_symm
  distinctKeys := hdistinct
  sameBy_self doc hdoc := Value.sameBy_self Number.alike_self (hdistinct doc hdoc)
  compatible := hcompatible

theorem Independent.same_of_alike (h : Independent Number.alike docs)
    (hself : ∀ doc ∈ docs, doc.same doc) : Independent Number.same docs where
  symm _ _ := Number.same_symm
  distinctKeys := h.distinctKeys
  sameBy_self := hself
  compatible := h.compatible.imp_of_mem fun hfirst _ hcompatible =>
    hcompatible.same_of_alike (hself _ hfirst)

/-- Documents that agree wherever two of them hold something can be merged in any order: the
results are alike, and whatever scalar or array a document holds at the end of a path of keys
is there in the result.  If each document equals itself, as it does unless one of its doubles
is not a number, this is equality. -/
theorem mergeAll_of_compatible (hdistinct : ∀ doc ∈ docs, doc.DistinctKeys)
    (hcompatible : docs.Pairwise (Compatible Number.alike)) :
    (∀ others : List Value, others.Perm docs → (mergeAll others).alike (mergeAll docs) ∧
      ((∀ doc ∈ docs, doc.same doc) → (mergeAll others).same (mergeAll docs))) ∧
    ∀ doc ∈ docs, ∀ keys x, doc.atKeys? keys = some x → x.kind ≠ .object →
      ∃ y, (mergeAll docs).atKeys? keys = some y ∧ y.alike x ∧
        ((∀ doc ∈ docs, doc.same doc) → y.same x) := by
  have h := independent_alike hdistinct hcompatible
  constructor
  · intro others hperm
    exact ⟨h.sameBy_of_perm hperm, fun hself => (h.same_of_alike hself).sameBy_of_perm hperm⟩
  · intro doc hdoc keys x hx hkind
    obtain ⟨y, hy, halike⟩ := h.exists_sameBy_at hdoc hx hkind
    refine ⟨y, hy, halike, fun hself => ?_⟩
    obtain ⟨y', hy', hsame⟩ := (h.same_of_alike hself).exists_sameBy_at hdoc hx hkind
    obtain rfl := Option.some.inj (hy.symm.trans hy')
    exact hsame

/-- Objects that share an object and two scalars, once as the two zeros, each with something of
its own, the second one merged first; and two that share a double that is not a number. -/
theorem mergeAll_of_compatible_of_shared_members :
    let one : Value := .object [("b", .string "s"),
      ("a", .object [("x", .number (.float 0.0)), ("l", .array [.null])])]
    let two : Value := .object [("b", .string "s"), ("a", .object [("y", .bool true)])]
    let three : Value := .object [("c", .null), ("a", .object [("x", .number (.float (-0.0)))])]
    let docs := [one, two, three]
    let four : Value := .object [("n", .number (.float Float.nan))]
    let five : Value := .object [("n", .number (.float Float.nan)), ("m", .null)]
    ((∀ doc ∈ docs, doc.DistinctKeys) ∧ docs.Pairwise (Compatible Number.alike) ∧
      (∀ doc ∈ docs, doc.same doc) ∧ [two, one, three].Perm docs ∧
      (mergeAll [two, one, three]).same (mergeAll docs) ∧
      (∃ y, (mergeAll docs).atKeys? ["a", "x"] = some y ∧ y.alike (.number (.float 0.0)) ∧
        y.same (.number (.float 0.0))) ∧
      mergeAll docs = .object [("b", .string "s"),
        ("a", .object [("x", .number (.float (-0.0))), ("l", .array [.null]), ("y", .bool true)]),
        ("c", .null)]) ∧
    (∀ doc ∈ [four, five], doc.DistinctKeys) ∧
      [four, five].Pairwise (Compatible Number.alike) ∧ [five, four].Perm [four, five] ∧
      (mergeAll [five, four]).alike (mergeAll [four, five]) ∧
      (mergeAll [five, four]).same (mergeAll [four, five]) = false := by
  intro one two three docs four five
  have hdistinct : ∀ doc ∈ docs, doc.DistinctKeys := by decide
  have hself : ∀ doc ∈ docs, doc.same doc := by decide
  have honeTwo : Compatible Number.alike one two := by
    apply compatible_objects
    simpa [Entries.find?] using And.intro (compatible_of_sameBy rfl rfl (by decide))
      (compatible_objects (by simp [Entries.find?]))
  have honeThree : Compatible Number.alike one three := by
    apply compatible_objects
    simpa [Entries.find?] using compatible_objects
      (by simpa [Entries.find?] using compatible_of_sameBy rfl rfl (by decide))
  have htwoThree : Compatible Number.alike two three := by
    apply compatible_objects
    simpa [Entries.find?] using compatible_objects (by simp [Entries.find?])
  have hcompatible : docs.Pairwise (Compatible Number.alike) := by
    simp [docs, honeTwo, honeThree, htwoThree]
  have hperm : [two, one, three].Perm docs := .swap one two [three]
  obtain ⟨horder, hkept⟩ := mergeAll_of_compatible hdistinct hcompatible
  obtain ⟨y, hy, halike, hsame⟩ :=
    hkept one (by simp [docs]) ["a", "x"] (.number (.float 0.0)) rfl (by decide)
  have hdistinctNan : ∀ doc ∈ [four, five], doc.DistinctKeys := by decide
  have hcompatibleNan : [four, five].Pairwise (Compatible Number.alike) := by
    have hfourFive : Compatible Number.alike four five := by
      apply compatible_objects
      simpa [Entries.find?] using compatible_of_sameBy rfl rfl (by decide)
    simp [hfourFive]
  have hpermNan : [five, four].Perm [four, five] := .swap four five []
  exact ⟨⟨hdistinct, hcompatible, hself, hperm, (horder _ hperm).2 hself,
      ⟨y, hy, halike, hsame hself⟩, rfl⟩,
    hdistinctNan, hcompatibleNan, hpermNan,
    ((mergeAll_of_compatible hdistinctNan hcompatibleNan).1 _ hpermNan).1, by decide⟩

end DocWeave.Value
