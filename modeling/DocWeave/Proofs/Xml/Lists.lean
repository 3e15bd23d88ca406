/-
Where lists come from in marked-up text.  A list that is found under a name while child
elements are stored is taken for the values so far; that is sound because no element has a
list for its value, so that every list in a document stands for several children of one name.
-/
import Mathlib
import DocWeave.Proofs.Xml.Values
import DocWeave.Proofs.Xml.Grouping

namespace DocWeave.Xml

/-- What is asked of a list: it holds several values, and none of them is a list. -/
def HoldsSeveral : Value → Prop
  | .array items => 2 ≤ items.length ∧ ∀ item ∈ items, item.kind ≠ .array
  | .null | .bool _ | .number _ | .string _ | .object _ => True

theorem keptByElements_holdsSeveral : KeptByElements HoldsSeveral where
  string _ := trivial
  empty := trivial
  insert _ _ _ := trivial
  pair hfirst hsecond :=
    ⟨Nat.le_refl 2, List.forall_mem_cons.2 ⟨hfirst, List.forall_mem_singleton.2 hsecond⟩⟩
  append {items v} h hv := by
    obtain ⟨hlength, hitems⟩ := h
    constructor
    · rw [List.length_append]
      exact Nat.le_add_right_of_le hlength
    · exact List.forall_mem_append.2 ⟨hitems, List.forall_mem_singleton.2 hv⟩

theorem kind_ne_array_of_convert {node : Node} {depth : Nat} {v : Value}
    (h : node.convert depth = .ok v) : v.kind ≠ .array := by
  cases node with
  | text s =>
      cases h
      exact nofun
  | element name attributes content =>
      rw [Node.convert] at h
      split at h
      next => cases h
      next =>
        obtain ⟨children, -, rfl⟩ := exists_of_map_eq_ok h
        exact kind_assemble_ne_array _ _ _

theorem kind_ne_array_of_convertChildren {content : List Node} {depth : Nat}
    {children : List (String × Value)} (h : convertChildren depth content = .ok children) :
    ∀ child ∈ children, child.2.kind ≠ .array := by
  rw [eq_childValues_of_convertChildren h]
  exact kind_ne_array_of_mem_childValues content

/-- Storing children one after the other groups them by their names, as long as none of their
values is a list.  None ever is: neither the value of an element, nor one of the values that
are stored for the elements inside it; and what a text is read as has only such lists in it
as stand for several children. -/
theorem children_grouped_and_lists_hold_several :
    (∀ children : List (String × Value), (∀ child ∈ children, child.2.kind ≠ .array) →
      children.foldl addChild [] = grouped children) ∧
    (∀ (node : Node) (depth : Nat) (v : Value), node.convert depth = .ok v → v.kind ≠ .array) ∧
    (∀ (content : List Node) (depth : Nat) (children : List (String × Value)),
      convertChildren depth content = .ok children →
        ∀ child ∈ children, child.2.kind ≠ .array) ∧
    ∀ (text : String) (v : Value), parse text = .ok v → v.Everywhere HoldsSeveral := by
  refine ⟨?_, ?_, ?_, ?_⟩
  · intro children hkinds
    exact (groups_foldl_addChild hkinds).eq_grouped
  · intro node depth v h
    exact kind_ne_array_of_convert h
  · intro content depth children h
    exact kind_ne_array_of_convertChildren h
  · intro text v h
    exact keptByElements_holdsSeveral.everywhere_of_parse h

/-- Three children of one name with another one between them, and an element whose attribute
has the key of a child element, beside text that stands for itself. -/
theorem children_grouped_and_lists_hold_several_of_repeated_names :
    let children : List (String × Value) :=
      [("b", .string "x"), ("a", .object []), ("b", .object []), ("b", .string "y")]
    let content : List Node := [.element "@id" [] [.text "2"], .element "b" [] [], .text "t"]
    let value : Value :=
      .object [("@id", .array [.string "1", .string "2"]), ("b", .object []),
        ("_text", .string "t")]
    let text := "<r id=\"1\"><@id>2</@id><b/>t</r><r/>"
    ((∀ child ∈ children, child.2.kind ≠ .array) ∧ children.foldl addChild [] =
        [("b", .array [.string "x", .object [], .string "y"]), ("a", .object [])]) ∧
      (Node.convert 1 (.element "r" [("id", "1")] content) = .ok value ∧ value.kind ≠ .array) ∧
      (convertChildren 2 content = .ok [("@id", .string "2"), ("b", .object [])] ∧
        ∀ child ∈ [("@id", .string "2"), ("b", Value.object [])], child.2.kind ≠ .array) ∧
      parse text = .ok (.object [("r", .array [value, .object []])]) ∧
        (Value.object [("r", .array [value, .object []])]).Everywhere HoldsSeveral := by
  intro children content value text
  have hkinds : ∀ child ∈ children, child.2.kind ≠ .array := by decide
  have hgrouped : grouped children =
      [("b", .array [.string "x", .object [], .string "y"]), ("a", .object [])] := by rfl
  have hconvert : Node.convert 1 (.element "r" [("id", "1")] content) = .ok value := by cbv
  have hcontent : convertChildren 2 content = .ok [("@id", .string "2"), ("b", .object [])] := by
    cbv
  have hparse : parse text = .ok (.object [("r", .array [value, .object []])]) := by cbv
  obtain ⟨hchildren, helement, hinside, hread⟩ := children_grouped_and_lists_hold_several
  exact ⟨⟨hkinds, (hchildren children hkinds).trans hgrouped⟩,
    ⟨hconvert, helement _ 1 value hconvert⟩, ⟨hcontent, hinside content 2 _ hcontent⟩,
    hparse, hread text _ hparse⟩

end DocWeave.Xml
