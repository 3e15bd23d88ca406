/-
How deep elements nest, and what conversion makes of them.  Conversion goes down with the
depth and stops where an element lies too deep; up to there it gives the document values.
-/
import DocWeave.Proofs.Outcome
import DocWeave.Proofs.Xml.Written

namespace DocWeave.Xml

/-- What is converted has its document value, however deep it lies. -/
theorem eq_childValues_of_convertChildren {depth : Nat} : {content : List Node} →
    {children : List (String × Value)} → convertChildren depth content = .ok children →
      children = childValues content
  | [], _, h => by
      cases h
      rfl
  | .text _ :: rest, _, h => by
      rw [convertChildren] at h
      rw [childValues]
      exact eq_childValues_of_convertChildren h
  | .element name attributes content :: rest, _, h => by
      rw [convertChildren] at h
      obtain ⟨value, hvalue, h⟩ := exists_of_bind_eq_ok h
      obtain ⟨others, hothers, h⟩ := exists_of_bind_eq_ok h
      cases h
      rw [Node.convert] at hvalue
      split at hvalue
      next => cases hvalue
      next =>
        obtain ⟨children, hchildren, rfl⟩ := exists_of_map_eq_ok hvalue
        rw [eq_childValues_of_convertChildren hchildren,
          eq_childValues_of_convertChildren hothers, childValues, Node.value]

/-- Elements that end within the limit are converted. -/
theorem convertChildren_of_height {depth : Nat} : {content : List Node} →
    depth + height content ≤ nestingLimit + 1 →
      convertChildren depth content = .ok (childValues content)
  | [], _ => rfl
  | .text _ :: rest, h => by
      rw [height] at h
      rw [convertChildren, childValues]
      exact convertChildren_of_height h
  | .element name attributes content :: rest, h => by
      rw [height] at h
      have hshallow : ¬ nestingLimit < depth := by omega
      have hcontent : depth + 1 + height content ≤ nestingLimit + 1 := by omega
      have hrest : depth + height rest ≤ nestingLimit + 1 := by omega
      rw [convertChildren, Node.convert, if_neg hshallow, convertChildren_of_height hcontent,
        convertChildren_of_height hrest, childValues, Node.value]
      rfl

theorem Node.convert_of_height {depth : Nat} (node : Node)
    (h : depth + height [node] ≤ nestingLimit + 1) : node.convert depth = .ok node.value := by
  cases node with
  | text s => rfl
  | element name attributes content =>
      rw [height, height] at h
      have hshallow : ¬ nestingLimit < depth := by omega
      have hcontent : depth + 1 + height content ≤ nestingLimit + 1 := by omega
      rw [Node.convert, if_neg hshallow, convertChildren_of_height hcontent, Node.value]
      rfl

theorem height_le_of_mem {node : Node} : {nodes : List Node} → node ∈ nodes →
    height [node] ≤ height nodes
  | first :: rest, h => by
      have hsplit : height (first :: rest) = max (height [first]) (height rest) := by
        cases first <;> simp [height]
      rw [hsplit]
      rcases List.mem_cons.1 h with rfl | h
      · exact Nat.le_max_left _ _
      · exact Nat.le_trans (height_le_of_mem h) (Nat.le_max_right _ _)

/-! ### Texts that are read -/

theorem dropMark_eq_self {text : List Char} (h : text.head? ≠ some '\uFEFF') :
    dropMark text = text := by
  unfold dropMark
  split
  next => exact absurd rfl h
  next => rfl

theorem exists_of_parse {text : String} {v : Value} (h : parse text = .ok v) :
    ∃ tokens roots, tokenize (dropMark text.toList) = .ok tokens ∧ build tokens = .ok roots ∧
      v = .object ((childValues roots).foldl addChild []) := by
  obtain ⟨tokens, htokens, h⟩ := exists_of_bind_eq_ok h
  obtain ⟨roots, hroots, h⟩ := exists_of_bind_eq_ok h
  obtain ⟨children, hchildren, h⟩ := exists_of_bind_eq_ok h
  obtain rfl := eq_childValues_of_convertChildren hchildren
  cases h
  exact ⟨tokens, roots, htokens, hroots, rfl⟩

theorem parse_of_build {text : String} {tokens : List Token} {roots : List Node}
    (htokens : tokenize (dropMark text.toList) = .ok tokens) (hroots : build tokens = .ok roots)
    (hheight : height roots ≤ nestingLimit) :
    parse text = .ok (.object ((childValues roots).foldl addChild [])) := by
  have hchildren : convertChildren 1 roots = .ok (childValues roots) :=
    convertChildren_of_height (by omega)
  rw [parse, htokens]
  simp only [bind, Except.bind, hroots, hchildren]
  rfl

end DocWeave.Xml
