/-
Finding a pattern in a text.
-/
import DocWeave.Text.Remainder

namespace DocWeave

/-- The text after a prefix, if it starts with it. -/
def dropPattern? : List Char → List Char → Option (List Char)
  | [], text => some text
  | _ :: _, [] => none
  | p :: pattern, c :: text => if p = c then dropPattern? pattern text else none

/-- What stands before and after the first place where a pattern occurs. -/
def breakOn (pattern : List Char) : List Char → Option (List Char × List Char)
  | [] => (dropPattern? pattern []).map ([], ·)
  | c :: text =>
      match dropPattern? pattern (c :: text) with
      | some after => some ([], after)
      | none => (breakOn pattern text).map fun found => (c :: found.1, found.2)

theorem eq_append_of_dropPattern? {pattern text rest : List Char}
    (h : dropPattern? pattern text = some rest) : text = pattern ++ rest := by
  induction pattern generalizing text with
  | nil => simpa [dropPattern?] using h
  | cons p pattern ih =>
      cases text with
      | nil => simp [dropPattern?] at h
      | cons c text =>
          simp only [dropPattern?] at h
          split at h
          next heq => rw [heq, ih h, List.cons_append]
          · simp at h

theorem dropPattern?_append (pattern rest : List Char) :
    dropPattern? pattern (pattern ++ rest) = some rest := by
  induction pattern with
  | nil => rfl
  | cons p pattern ih => simp [dropPattern?, ih]

/-- Nothing is lost around a pattern that was found. -/
theorem eq_append_of_breakOn {pattern text before after : List Char}
    (h : breakOn pattern text = some (before, after)) :
    text = before ++ pattern ++ after := by
  induction text generalizing before with
  | nil =>
      simp only [breakOn, Option.map_eq_some_iff, Prod.mk.injEq] at h
      obtain ⟨rest, hrest, rfl, rfl⟩ := h
      exact eq_append_of_dropPattern? hrest
  | cons c text ih =>
      simp only [breakOn] at h
      split at h
      next rest hrest =>
        cases h
        exact eq_append_of_dropPattern? hrest
      · simp only [Option.map_eq_some_iff, Prod.mk.injEq] at h
        obtain ⟨⟨inner, rest⟩, hfound, rfl, rfl⟩ := h
        simp [ih hfound]

/-- The text after a pattern that was found is no longer than the whole. -/
theorem length_breakOn_le {pattern text before after : List Char}
    (h : breakOn pattern text = some (before, after)) : after.length ≤ text.length := by
  rw [eq_append_of_breakOn h, List.length_append]
  omega

/-- The text after a character that was found is shorter than the whole. -/
theorem length_lt_of_breakOn {c : Char} {text before after : List Char}
    (h : breakOn [c] text = some (before, after)) : after.length < text.length := by
  rw [eq_append_of_breakOn h]
  simp only [List.length_append, List.length_cons]
  omega

end DocWeave
