/-
Finding where a text ends: at a terminator that it does not hold, or at the first
character of another class.
-/
import DocWeave.Text.Search

namespace DocWeave

theorem isPrefix_of_dropPattern? {pattern text rest : List Char}
    (h : dropPattern? pattern text = some rest) : pattern <+: text :=
  ⟨rest, (eq_append_of_dropPattern? h).symm⟩

/-- A pattern whose last character stands nowhere else in it cannot begin inside a text
that does not hold it and end behind that text. -/
theorem not_isPrefix_append {stem : List Char} {last : Char} (hlast : last ∉ stem)
    {c : Char} {text : List Char} (htext : ¬ (stem ++ [last]) <+: c :: text)
    (after : List Char) :
    ¬ (stem ++ [last]) <+: c :: text ++ (stem ++ [last] ++ after) := by
  intro h
  rcases Nat.lt_or_ge text.length stem.length with hshort | hlong
  · -- the pattern's last character would stand in the stem of the one that follows
    have hlen : (c :: text).length ≤ stem.length := hshort
    have hat := List.prefix_iff_getElem?.1 h stem.length (by simp)
    rw [List.getElem?_append_right hlen, List.getElem_concat_length rfl,
      List.append_assoc, List.getElem?_append_left (by simp; omega)] at hat
    exact hlast (List.mem_of_getElem? hat)
  · exact htext (List.prefix_of_prefix_length_le h (List.prefix_append _ _) (by simpa using hlong))

/-- A terminator is found behind the first text that does not hold it. -/
theorem breakOn_append {stem : List Char} {last : Char} (hlast : last ∉ stem)
    {before : List Char} (hbefore : ¬ (stem ++ [last]) <:+: before) (after : List Char) :
    breakOn (stem ++ [last]) (before ++ (stem ++ [last] ++ after)) = some (before, after) := by
  induction before with
  | nil =>
      rw [List.nil_append]
      cases hpattern : stem ++ [last] ++ after with
      | nil => simp at hpattern
      | cons c rest => rw [breakOn, ← hpattern, dropPattern?_append]
  | cons c before ih =>
      have hprefix := not_isPrefix_append hlast
        (fun h => hbefore (h.isInfix)) after
      have hnone : dropPattern? (stem ++ [last]) (c :: before ++ (stem ++ [last] ++ after)) =
          none := by
        cases h : dropPattern? (stem ++ [last]) (c :: before ++ (stem ++ [last] ++ after)) with
        | none => rfl
        | some rest => exact absurd (isPrefix_of_dropPattern? h) hprefix
      have hrest := ih fun h => hbefore (h.trans (List.suffix_cons c before).isInfix)
      rw [List.cons_append] at hnone ⊢
      rw [breakOn, hnone, hrest]
      rfl

/-- A character is found behind the first text that does not hold it. -/
theorem breakOn_singleton_append {c : Char} {before : List Char} (h : c ∉ before)
    (after : List Char) : breakOn [c] (before ++ c :: after) = some (before, after) := by
  have hbefore : ¬ ([] ++ [c]) <:+: before := by
    rintro ⟨first, second, rfl⟩
    simp at h
  simpa using breakOn_append (List.not_mem_nil (a := c)) hbefore after

theorem dropPattern?_isSome {pattern text : List Char} (h : pattern <+: text) :
    (dropPattern? pattern text).isSome := by
  obtain ⟨rest, rfl⟩ := h
  rw [dropPattern?_append]
  rfl

/-- In front of the first place where a pattern occurs, it does not occur. -/
theorem not_isInfix_of_breakOn {pattern text before after : List Char} (hne : pattern ≠ [])
    (h : breakOn pattern text = some (before, after)) : ¬ pattern <:+: before := by
  induction text generalizing before with
  | nil =>
      obtain ⟨rest, -, hfound⟩ := Option.map_eq_some_iff.1 h
      cases hfound
      simpa using hne
  | cons c text ih =>
      rw [breakOn] at h
      split at h
      next =>
        cases h
        simpa using hne
      next hnone =>
        obtain ⟨⟨inner, rest⟩, hfound, heq⟩ := Option.map_eq_some_iff.1 h
        cases heq
        rw [List.infix_cons_iff]
        rintro (hstarts | hinside)
        · have htext := eq_append_of_breakOn hfound
          have hlong : pattern <+: c :: text := by
            rw [htext, List.append_assoc, ← List.cons_append]
            exact hstarts.trans (List.prefix_append _ _)
          simpa [hnone] using dropPattern?_isSome hlong
        · exact ih hfound hinside

/-- A run of characters of a class ends where a character of another class follows. -/
theorem span_append {α : Type} {p : α → Bool} {front : List α} (hfront : ∀ c ∈ front, p c)
    (rest : List α) (hrest : ∀ c ∈ rest.head?, p c = false) :
    (front ++ rest).takeWhile p = front ∧ (front ++ rest).dropWhile p = rest := by
  rw [List.takeWhile_append_of_pos hfront, List.dropWhile_append_of_pos hfront]
  cases rest with
  | nil => simp
  | cons c rest =>
      have hc := hrest c rfl
      simp [hc]

end DocWeave
