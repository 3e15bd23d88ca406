/-
The document value of an element.  Attributes come first, under marked keys; child
elements follow under their names; text stands for itself where it is alone, and else
under a key of its own.
-/
import Mathlib
import DocWeave.Proofs.Text.Trim
import DocWeave.Proofs.Xml.Grouping
import DocWeave.Proofs.Xml.Written

namespace DocWeave.Xml

def attributeMembers (attributes : Entries String) : Entries Value :=
  attributes.map fun a => (attributeKey a.1, .string a.2)

/-- The document value of an element with these attributes, runs of text and child
elements. -/
def conversion (attributes : Entries String) (runs : List (List Char))
    (children : List (String × Value)) : Value :=
  let members := attributeMembers attributes ++ grouped children
  let text := Value.string (String.ofList (List.intercalate [' '] runs))
  if runs.isEmpty then .object members
  else if members.isEmpty then text
  else .object (members ++ [(if children.isEmpty then valueKey else textKey, text)])

def childDocuments : List Node → List (String × Value)
  | [] => []
  | .text _ :: rest => childDocuments rest
  | .element name attributes content :: rest =>
      (name, conversion attributes (textRuns content) (childDocuments content)) ::
        childDocuments rest

theorem map_fst_childDocuments (content : List Node) :
    (childDocuments content).map Prod.fst = childNames content := by
  induction content with
  | nil => simp [childDocuments, childNames]
  | cons node rest ih => cases node <;> simp [childDocuments, childNames, ih]

theorem kind_conversion_ne_array (attributes : Entries String) (runs : List (List Char))
    (children : List (String × Value)) : (conversion attributes runs children).kind ≠ .array := by
  unfold conversion
  dsimp only
  split
  · exact nofun
  split <;> exact nofun

theorem kind_ne_array_of_mem_childDocuments (content : List Node) :
    ∀ child ∈ childDocuments content, child.2.kind ≠ .array := by
  induction content with
  | nil => simp [childDocuments]
  | cons node rest ih =>
      cases node with
      | text s => simpa only [childDocuments] using ih
      | element name attributes content =>
          simp only [childDocuments]
          exact List.forall_mem_cons.2 ⟨kind_conversion_ne_array _ _ _, ih⟩

/-! ### Text -/

theorem joinedText_eq (content : List Node) :
    joinedText content = List.intercalate [' '] (textRuns content) := by
  -- both sides join runs by blanks, so the runs are enough
  refine congrArg (fun runs : List (List Char) => (runs.intersperse [' ']).flatten) ?_
  induction content with
  | nil => rfl
  | cons node rest ih =>
      cases node with
      | text s =>
          by_cases hblank : isBlankText s.toList
          · have htrim := (trim_eq_nil_iff s.toList).2 hblank
            simpa [textRuns, hblank, htrim] using ih
          · have htrim := mt (trim_eq_nil_iff s.toList).1 hblank
            simpa [textRuns, hblank, htrim] using ih
      | element => simpa [textRuns] using ih

theorem ne_nil_of_mem_textRuns (content : List Node) : ∀ run ∈ textRuns content, run ≠ [] := by
  induction content with
  | nil => exact fun run hrun => nomatch hrun
  | cons node rest ih =>
      cases node with
      | text s =>
          rw [textRuns]
          split
          · exact ih
          next hblank =>
            exact List.forall_mem_cons.2 ⟨mt (trim_eq_nil_iff s.toList).1 hblank, ih⟩
      | element => exact ih

theorem intercalate_eq_nil_iff {runs : List (List Char)} (h : ∀ run ∈ runs, run ≠ []) :
    List.intercalate [' '] runs = [] ↔ runs = [] := by
  cases runs with
  | nil => simp [List.intercalate]
  | cons run rest =>
      have hrun := h run List.mem_cons_self
      cases rest <;> simp [List.intercalate, hrun]

/-! ### Keys that do not clash -/

theorem attributeKey_injective {name other : String}
    (h : attributeKey name = attributeKey other) : name = other := by
  have hlist := congrArg String.toList h
  rw [attributeKey, attributeKey, String.toList_append, String.toList_append] at hlist
  exact String.toList_inj.1 (List.append_cancel_left hlist)

theorem head?_attributeKey (name : String) : (attributeKey name).toList.head? = some '@' := by
  rw [attributeKey, String.toList_append]
  rfl

theorem nodup_keys_attributeMembers {attributes : Entries String}
    (h : (Entries.keys attributes).Nodup) :
    (Entries.keys (attributeMembers attributes)).Nodup := by
  have hkeys : Entries.keys (attributeMembers attributes) =
      (Entries.keys attributes).map attributeKey := by
    simp [Entries.keys, attributeMembers]
  rw [hkeys]
  exact List.Nodup.map (fun _ _ => attributeKey_injective) h

theorem not_mem_keys_attributeMembers {key : String} (h : key.toList.head? ≠ some '@')
    (attributes : Entries String) : key ∉ Entries.keys (attributeMembers attributes) := by
  intro hmem
  obtain ⟨pair, hpair, rfl⟩ := List.mem_map.1 hmem
  obtain ⟨a, -, rfl⟩ := List.mem_map.1 hpair
  exact h (head?_attributeKey a.1)

theorem foldl_insert_attributes {attributes : Entries String}
    (h : (Entries.keys attributes).Nodup) :
    attributes.foldl (fun entries a =>
      Entries.insert (attributeKey a.1) (.string a.2) entries) [] =
        attributeMembers attributes := by
  rw [← Entries.ofPairs_of_nodup (nodup_keys_attributeMembers h), Entries.ofPairs,
    attributeMembers, List.foldl_map]

/-! ### Elements -/

/-- An element is put together as it is documented, when no child element takes the place
of an attribute or of the text. -/
theorem assemble_eq_conversion {attributes : Entries String} {runs : List (List Char)}
    {children : List (String × Value)} (hnodup : (Entries.keys attributes).Nodup)
    (hruns : ∀ run ∈ runs, run ≠ [])
    (hat : ∀ name ∈ children.map Prod.fst, name.toList.head? ≠ some '@')
    (htext : runs ≠ [] → textKey ∉ children.map Prod.fst)
    (hkinds : ∀ child ∈ children, child.2.kind ≠ .array) :
    assemble attributes (List.intercalate [' '] runs) children =
      conversion attributes runs children := by
  have hempty : (List.intercalate [' '] runs).isEmpty = runs.isEmpty := by
    rw [Bool.eq_iff_iff, List.isEmpty_iff, List.isEmpty_iff, intercalate_eq_nil_iff hruns]
  unfold assemble conversion
  dsimp only
  rw [foldl_insert_attributes hnodup, hempty]
  have hfresh : ∀ key : String, key.toList.head? ≠ some '@' →
      key ∉ Entries.keys (attributeMembers attributes) :=
    fun key hkey => not_mem_keys_attributeMembers hkey attributes
  generalize attributeMembers attributes = marks at *
  by_cases hchildren : children = []
  · subst hchildren
    have hvalue := Entries.insert_of_not_mem (hfresh valueKey (by decide))
    simp only [List.isEmpty_nil, if_true, hvalue]
    rw [grouped, List.map_nil, List.eraseDups_nil, List.map_nil, List.append_nil]
  · have hchild : ∀ child ∈ children, child.1 ∉ Entries.keys marks := fun child hmem =>
      hfresh child.1 (hat child.1 (List.mem_map_of_mem hmem))
    have hne : children.isEmpty = false := by simpa using hchildren
    have hmembers : (marks ++ grouped children).isEmpty = false := by
      simp [grouped_ne_nil hchildren]
    rw [foldl_addChild_eq hchild hkinds, hne, hmembers]
    simp only [Bool.false_eq_true, if_false]
    by_cases hrun : runs.isEmpty
    · rw [if_pos hrun, if_pos hrun]
    · have htextKey : textKey ∉ Entries.keys (marks ++ grouped children) := by
        have hnot := htext (mt List.isEmpty_iff.2 hrun)
        have hgrouped : textKey ∉ Entries.keys (grouped children) := by
          rwa [keys_grouped, List.mem_eraseDups]
        rw [Entries.keys, List.map_append, List.mem_append]
        exact not_or.2 ⟨hfresh textKey (by decide), hgrouped⟩
      rw [if_neg hrun, if_neg hrun, Entries.insert_of_not_mem htextKey]

/-- The child elements of a content have their documented values. -/
theorem childValues_eq_childDocuments {content : List Node} (h : Conforming content) :
    childValues content = childDocuments content := by
  induction h with
  | nil => simp [childValues, childDocuments]
  | text _ ih => simpa only [childValues, childDocuments] using ih
  | @element name attributes content rest _ _ _ hnodup hat htext _ _ ihcontent ihrest =>
      have hnames := map_fst_childDocuments content
      simp only [childValues, childDocuments, Node.value]
      rw [ihcontent, ihrest, joinedText_eq, assemble_eq_conversion hnodup
        (ne_nil_of_mem_textRuns content) (hnames ▸ hat) (hnames ▸ htext)
        (kind_ne_array_of_mem_childDocuments content)]

end DocWeave.Xml
