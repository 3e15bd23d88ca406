/-
Longer paths from shorter ones.  What may follow the dollar sign of a path may follow any path,
since a segment ends where the next one starts; the longer path takes the steps of the two one
after the other, and so does following it.
-/
import DocWeave.Path.Select
import DocWeave.Proofs.Path.Reading

namespace DocWeave.Path

/-! ### Spellings -/

theorem Segments.append {first second : Path} {front back : List Char}
    (hfirst : Segments first front) (hsecond : Segments second back) :
    Segments (first ++ second) (front ++ back) := by
  induction hfirst with
  | nil => exact hsecond
  | cons hsegment _ ih =>
      rw [List.cons_append, List.append_assoc]
      exact .cons hsegment ih

theorem spelled_cons_iff {path : Path} {text : List Char} :
    Spelled path ('$' :: text) ↔ Segments path text := by
  constructor
  · rintro ⟨h⟩
    exact h
  · exact .root

theorem Spelled.append {first second : Path} {front back : List Char}
    (hfirst : Spelled first front) (hsecond : Segments second back) :
    Spelled (first ++ second) (front ++ back) := by
  obtain ⟨h⟩ := hfirst
  exact .root (h.append hsecond)

theorem parse_eq_ok_iff {text : String} {path : Path} :
    parse text = .ok path ↔ Spelled path text.toList := by
  rw [← read_eq_ok_iff, parse]
  cases read text.toList <;> simp [Except.mapError]

/-! ### Following -/

theorem evaluate_of_parse {text : String} {path : Path} (h : parse text = .ok path)
    (root : Value) : evaluate text root = .ok (path.select root) := by
  rw [evaluate, h]
  rfl

/-- The text of a path and what may follow a dollar sign make the text of a path together, with
the steps of both; its matches are those of the second part on each match of the first, in
order. -/
theorem evaluate_append {front back : String} {first second : Path}
    (hfirst : parse front = .ok first) (hsecond : parse ("$" ++ back) = .ok second) :
    parse (front ++ back) = .ok (first ++ second) ∧
      ∀ root, ∃ (found : List Value) (parts : List (List Value)),
        evaluate front root = .ok found ∧
        found.map (evaluate ("$" ++ back)) = parts.map .ok ∧
        evaluate (front ++ back) root = .ok parts.flatten := by
  have hsegments : Segments second back.toList := by
    rw [parse_eq_ok_iff, String.toList_append] at hsecond
    exact spelled_cons_iff.1 hsecond
  have hboth : parse (front ++ back) = .ok (first ++ second) := by
    rw [parse_eq_ok_iff, String.toList_append]
    exact (parse_eq_ok_iff.1 hfirst).append hsegments
  refine ⟨hboth, ?_⟩
  intro root
  refine ⟨first.select root, (first.select root).map second.select,
    evaluate_of_parse hfirst root, ?_, ?_⟩
  · rw [List.map_map]
    apply List.map_congr_left
    intro found _
    exact evaluate_of_parse hsecond found
  · rw [evaluate_of_parse hboth, select_append, List.flatMap_def]

/-- A name that ends where a dot starts the next one, quotes around a dot and a bracket, and a
wildcard with two matches. -/
theorem evaluate_append_of_quoted_dot :
    let front := "$.a[*]"
    let back := ".b['x.y[']"
    let first : Path := [.property "a", .wildcard]
    let second : Path := [.property "b", .property "x.y["]
    let row (v : Value) : Value := .object [("b", .object [("x.y[", v)])]
    let root : Value := .object [("a", .array [row .null, .bool true, row (.string "s")])]
    parse front = .ok first ∧ parse ("$" ++ back) = .ok second ∧
      parse (front ++ back) = .ok (first ++ second) ∧
      (∃ (found : List Value) (parts : List (List Value)),
        evaluate front root = .ok found ∧
        found.map (evaluate ("$" ++ back)) = parts.map .ok ∧
        evaluate (front ++ back) root = .ok parts.flatten) ∧
      evaluate (front ++ back) root = .ok [.null, .string "s"] := by
  intro front back first second row root
  have hfirst : parse front = .ok first := by cbv
  have hsecond : parse ("$" ++ back) = .ok second := by cbv
  obtain ⟨hboth, hfollow⟩ := evaluate_append hfirst hsecond
  exact ⟨hfirst, hsecond, hboth, hfollow root, evaluate_of_parse hboth root⟩

end DocWeave.Path
