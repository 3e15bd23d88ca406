/-
What the value of an element keeps.  Attributes, child elements and text stand side by side
under keys of one kind, so each of them can be found again unless another one has the same
key.
-/
import DocWeave.Proofs.Path.Keys
import DocWeave.Proofs.Xml.Attributes
import DocWeave.Proofs.Xml.Conversion
import DocWeave.Proofs.Xml.Values

namespace DocWeave.Xml

/-! ### Members of an element -/

theorem map_fst_childValues (content : List Node) :
    (childValues content).map Prod.fst = childNames content := by
  induction content with
  | nil => simp [childValues, childNames]
  | cons node rest ih => cases node <;> simp [childValues, childNames, ih]

/-- Child elements leave the values under other keys as they are. -/
theorem find?_foldl_addChild_of_not_mem {name : String} {children : List (String × Value)}
    (h : name ∉ children.map Prod.fst) (entries : Entries Value) :
    Entries.find? name (children.foldl addChild entries) = Entries.find? name entries := by
  induction children generalizing entries with
  | nil => rfl
  | cons child rest ih =>
      obtain ⟨hchild, hrest⟩ := not_or.1 (mt List.mem_cons.2 h)
      rw [List.foldl_cons, ih hrest, find?_addChild_of_ne hchild]

/-- Under a key that was free stand the values of the child elements with that name, and
nothing else. -/
theorem find?_foldl_addChild {name : String} {entries : Entries Value}
    (hfree : name ∉ Entries.keys entries) {children : List (String × Value)}
    (hkinds : ∀ child ∈ children, child.2.kind ≠ .array) :
    Entries.find? name (children.foldl addChild entries) = found (valuesOf name children) := by
  induction children using List.reverseRecOn with
  | nil => exact (Entries.find?_eq_none_iff name entries).2 hfree
  | append_singleton children child ih =>
      have hbefore : ∀ child ∈ children, child.2.kind ≠ .array := fun c hc =>
        hkinds c (List.mem_append_left _ hc)
      rw [List.foldl_append]
      exact find?_addChild hbefore (ih hbefore) child

/-- An attribute whose key is no name of a child element stands under its key. -/
theorem find?_attribute {attributes : Entries String} (hnodup : (Entries.keys attributes).Nodup)
    {a : String × String} (ha : a ∈ attributes) {children : List (String × Value)}
    (h : attributeKey a.1 ∉ children.map Prod.fst) :
    Entries.find? (attributeKey a.1) (children.foldl addChild (attributeMembers attributes)) =
      some (.string a.2) := by
  rw [find?_foldl_addChild_of_not_mem h]
  exact Entries.find?_of_mem (nodup_keys_attributeMembers hnodup) (List.mem_map_of_mem ha)

/-- Child elements whose name is no key of an attribute stand under their name. -/
theorem find?_children {attributes : Entries String} {children : List (String × Value)}
    (hkinds : ∀ child ∈ children, child.2.kind ≠ .array) {name : String}
    (hname : name ∈ children.map Prod.fst)
    (h : name ∉ attributes.map fun a => attributeKey a.1) :
    Entries.find? name (children.foldl addChild (attributeMembers attributes)) =
      some (collapse (valuesOf name children)) := by
  have hfree : name ∉ Entries.keys (attributeMembers attributes) := by
    rwa [attributeMembers, Entries.keys, List.map_map]
  have hvalues : valuesOf name children ≠ [] := fun hnil =>
    (valuesOf_eq_nil_iff name children).1 hnil hname
  rw [find?_foldl_addChild hfree hkinds, found, if_neg (mt List.isEmpty_iff.1 hvalues)]

/-! ### Text of an element -/

theorem joinedText_eq_nil_iff (content : List Node) :
    joinedText content = [] ↔ textRuns content = [] := by
  rw [joinedText_eq, intercalate_eq_nil_iff (ne_nil_of_mem_textRuns content)]

/-- The key of the text of an element, by the names of its child elements. -/
def ownKey (names : List String) : String :=
  if names = [] then valueKey else textKey

theorem attributeKey_ne_ownKey (name : String) (names : List String) :
    attributeKey name ≠ ownKey names := by
  intro heq
  have hhead := head?_attributeKey name
  rw [heq, ownKey] at hhead
  split at hhead <;> exact absurd hhead (by decide)

theorem assemble_text_alone {text : List Char} (h : text ≠ []) :
    assemble [] text [] = .string (String.ofList text) := by
  simp [assemble, h]

/-- An element that is not text alone is an object.  The text is written last, so that it
stands under its key whatever else is there. -/
theorem exists_assemble_eq_object {attributes : Entries String} {text : List Char}
    {children : List (String × Value)} (hnodup : (Entries.keys attributes).Nodup)
    (h : ¬ ((attributes = [] ∧ children = []) ∧ text ≠ [])) :
    ∃ entries, assemble attributes text children = .object entries ∧
      (text ≠ [] → Entries.find? (ownKey (children.map Prod.fst)) entries =
        some (.string (String.ofList text))) ∧
      ∀ key, (text ≠ [] → key ≠ ownKey (children.map Prod.fst)) → Entries.find? key entries =
        Entries.find? key (children.foldl addChild (attributeMembers attributes)) := by
  unfold assemble
  dsimp only
  rw [foldl_insert_attributes hnodup]
  by_cases htext : text = []
  · refine ⟨children.foldl addChild (attributeMembers attributes), ?_, absurd htext,
      fun _ _ => rfl⟩
    cases children <;> simp [htext]
  · refine ⟨Entries.insert (ownKey (children.map Prod.fst)) (.string (String.ofList text))
      (children.foldl addChild (attributeMembers attributes)), ?_,
      fun _ => Entries.find?_insert_self _ _ _,
      fun key hkey => Entries.find?_insert_of_ne (hkey htext) _ _⟩
    cases children with
    | nil =>
        have hattributes : attributeMembers attributes ≠ [] := by
          simpa [attributeMembers, htext] using h
        simp [ownKey, htext, hattributes]
    | cons child rest => simp [ownKey, htext]

/-! ### What is kept -/

/-- A key that belongs to a child element and also to an attribute or to the text. -/
def Contested (attributes : Entries String) (content : List Node) (key : String) : Prop :=
  key ∈ childNames content ∧
    (key ∈ attributes.map (fun a => attributeKey a.1) ∨ key = textKey ∧ textRuns content ≠ [])

/-- Where the text of an element is found in its value: it is the value when nothing else
is there. -/
def ownText (attributes : Entries String) (content : List Node) (v : Value) : Option Value :=
  if attributes = [] ∧ childNames content = [] then some v
  else v.get? (ownKey (childNames content))

/-- A value keeps what an element holds: under certain keys each attribute and the child
elements of each name, and the text. -/
structure Preserves (keys : String → Prop) (attributes : Entries String) (content : List Node)
    (v : Value) : Prop where
  attributes_kept : ∀ a ∈ attributes, keys (attributeKey a.1) →
    v.get? (attributeKey a.1) = some (.string a.2)
  children_kept : ∀ name ∈ childNames content, keys name →
    v.get? name = some (collapse (valuesOf name (childValues content)))
  text_kept : textRuns content ≠ [] → ownText attributes content v =
    some (.string (String.ofList (List.intercalate [' '] (textRuns content))))

theorem preserves_assemble {attributes : Entries String}
    (hnodup : (Entries.keys attributes).Nodup) (content : List Node) :
    Preserves (fun key => ¬ Contested attributes content key) attributes content
      (assemble attributes (joinedText content) (childValues content)) := by
  have hnames := map_fst_childValues content
  have hruns : joinedText content ≠ [] ↔ textRuns content ≠ [] :=
    not_congr (joinedText_eq_nil_iff content)
  by_cases halone : (attributes = [] ∧ childValues content = []) ∧ joinedText content ≠ []
  · obtain ⟨⟨rfl, hchildren⟩, hjoined⟩ := halone
    have hnone : childNames content = [] := by rw [← hnames, hchildren, List.map_nil]
    rw [hchildren, assemble_text_alone hjoined, joinedText_eq]
    refine ⟨by simp, by simp [hnone], fun _ => ?_⟩
    rw [ownText, if_pos ⟨rfl, hnone⟩]
  · obtain ⟨entries, hobject, hown, hothers⟩ := exists_assemble_eq_object hnodup halone
    rw [hnames] at hown hothers
    rw [hobject]
    constructor
    · intro a ha hkey
      have hchild : attributeKey a.1 ∉ (childValues content).map Prod.fst := fun hmem =>
        hkey ⟨hnames ▸ hmem, .inl (List.mem_map_of_mem ha)⟩
      rw [Value.get?_object, hothers _ (fun _ => attributeKey_ne_ownKey a.1 _),
        find?_attribute hnodup ha hchild]
    · intro name hname hkey
      have hfree : name ∉ attributes.map fun a => attributeKey a.1 := fun hmem =>
        hkey ⟨hname, .inl hmem⟩
      have hne : joinedText content ≠ [] → name ≠ ownKey (childNames content) := by
        intro hjoined heq
        rw [ownKey, if_neg (List.ne_nil_of_mem hname)] at heq
        exact hkey ⟨hname, .inr ⟨heq, hruns.1 hjoined⟩⟩
      rw [Value.get?_object, hothers name hne,
        find?_children (kind_ne_array_of_mem_childValues content) (hnames ▸ hname) hfree]
    · intro hne
      have hmembers : ¬ (attributes = [] ∧ childNames content = []) := by
        rw [← hnames, List.map_eq_nil_iff]
        exact fun hnone => halone ⟨hnone, hruns.2 hne⟩
      rw [ownText, if_neg hmembers, Value.get?_object, hown (hruns.2 hne), joinedText_eq]

/-- Of an element whose attributes are given once, everything is kept that does not share
its key with something else. -/
theorem preserves_of_occurs {roots : List Node}
    (h : AllAttributes (fun attributes => (Entries.keys attributes).Nodup) roots) {name : String}
    {attributes : Entries String} {content : List Node}
    (hoccurs : Occurs (.element name attributes content) roots) :
    Preserves (fun key => ¬ Contested attributes content key) attributes content
      (Node.value (.element name attributes content)) := by
  rw [Node.value]
  exact preserves_assemble (h name attributes content hoccurs) content

/-- A text that is read has root elements, whose values stand under their names, and of
each element in them everything is kept that does not share its key with something else. -/
theorem exists_roots_of_parse {text : String} {v : Value} (h : parse text = .ok v) :
    ∃ roots, (tokenize (dropMark text.toList) >>= build) = .ok roots ∧
      (∀ name ∈ childNames roots,
        v.get? name = some (collapse (valuesOf name (childValues roots)))) ∧
      ∀ name attributes content, Occurs (.element name attributes content) roots →
        Preserves (fun key => ¬ Contested attributes content key) attributes content
          (Node.value (.element name attributes content)) := by
  obtain ⟨tokens, roots, htokens, hroots, rfl⟩ := exists_of_parse h
  have hkeys : AllAttributes (fun attributes => (Entries.keys attributes).Nodup) roots :=
    allAttributes_of_build (hasDistinctKeys_of_tokenize htokens) hroots
  refine ⟨roots, by rw [htokens]; exact hroots, fun name hname => ?_,
    fun _ _ _ hoccurs => preserves_of_occurs hkeys hoccurs⟩
  have hfree : name ∉ ([] : Entries String).map fun a => attributeKey a.1 := List.not_mem_nil
  rw [← map_fst_childValues] at hname
  exact find?_children (kind_ne_array_of_mem_childValues roots) hname hfree

/-- However a tree was built, everything that does not share its key with something else
is kept of each of its elements. -/
theorem preserves_of_build {tokens : List Token}
    (htokens : ∀ token ∈ tokens, token.HasDistinctKeys) {roots : List Node}
    (hbuild : build tokens = .ok roots) {name : String} {attributes : Entries String}
    {content : List Node} (hoccurs : Occurs (.element name attributes content) roots) :
    Preserves (fun key => ¬ Contested attributes content key) attributes content
      (Node.value (.element name attributes content)) :=
  preserves_of_occurs (allAttributes_of_build htokens hbuild) hoccurs

/-- An element inside another one, with an attribute, two child elements of one name, and
text between them. -/
theorem preserves_of_build_of_mixed_content :
    let tokens : List Token := [.opening "r" [], .opening "a" [("id", "1")], .opening "b" [],
      .text "x", .closing "b", .text " hi ", .empty "b" [], .closing "a", .closing "r"]
    let content : List Node := [.element "b" [] [.text "x"], .text " hi ", .element "b" [] []]
    let roots : List Node := [.element "r" [] [.element "a" [("id", "1")] content]]
    (∀ token ∈ tokens, token.HasDistinctKeys) ∧ build tokens = .ok roots ∧
      Occurs (.element "a" [("id", "1")] content) roots ∧
      Preserves (fun key => ¬ Contested [("id", "1")] content key) [("id", "1")] content
        (.object [("@id", .string "1"), ("b", .array [.string "x", .object []]),
          ("_text", .string "hi")]) := by
  intro tokens content roots
  have htokens : ∀ token ∈ tokens, token.HasDistinctKeys := by
    decide
  have hbuild : build tokens = .ok roots := by
    rfl
  have hoccurs : Occurs (.element "a" [("id", "1")] content) roots :=
    .inside List.mem_cons_self (.here List.mem_cons_self)
  have hvalue : Node.value (.element "a" [("id", "1")] content) =
      .object [("@id", .string "1"), ("b", .array [.string "x", .object []]),
        ("_text", .string "hi")] := by
    cbv
  exact ⟨htokens, hbuild, hoccurs, hvalue ▸ preserves_of_build htokens hbuild hoccurs⟩

/-- A child element makes a list with an attribute that has its key, and text takes the
place of a child element that has its key. -/
theorem not_preserves_of_contested_keys :
    let marked : List Node := [.element "@id" [] [.text "1"]]
    let mixed : List Node := [.text "hi", .element "_text" [] [.text "x"]]
    ((tokenize "<a id=\"1\"><@id>1</@id></a>".toList >>= build) =
        .ok [.element "a" [("id", "1")] marked] ∧
      ¬ Preserves (fun _ => True) [("id", "1")] marked
        (Node.value (.element "a" [("id", "1")] marked))) ∧
    ((tokenize "<a>hi<_text>x</_text></a>".toList >>= build) = .ok [.element "a" [] mixed] ∧
      ¬ Preserves (fun _ => True) [] mixed (Node.value (.element "a" [] mixed))) := by
  intro marked mixed
  refine ⟨⟨by cbv, fun h => ?_⟩, ⟨by cbv, fun h => ?_⟩⟩
  · have hkept := h.attributes_kept ("id", "1") List.mem_cons_self trivial
    have hvalue : (Node.value (.element "a" [("id", "1")] marked)).get? (attributeKey "id") =
        some (.array [.string "1", .string "1"]) := by
      cbv
    rw [hvalue] at hkept
    simp at hkept
  · have hkept := h.children_kept "_text" List.mem_cons_self trivial
    have hvalue : (Node.value (.element "a" [] mixed)).get? "_text" = some (.string "hi") := by
      cbv
    have hchild : collapse (valuesOf "_text" (childValues mixed)) = .string "x" := by
      cbv
    rw [hvalue, hchild] at hkept
    simp at hkept

end DocWeave.Xml
