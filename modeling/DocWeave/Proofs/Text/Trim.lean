/-
Trimming takes white space away at both ends and nothing else.
-/
import Mathlib.Data.List.TakeWhile
import DocWeave.Text.Basic

namespace DocWeave

theorem trimStart_append_of_isBlankText {blank : List Char} (h : isBlankText blank)
    (text : List Char) : trimStart (blank ++ text) = trimStart text := by
  induction blank with
  | nil => rfl
  | cons c rest ih =>
      simp only [isBlankText, List.all_cons, Bool.and_eq_true] at h
      rw [trimStart, List.cons_append, List.dropWhile_cons_of_pos h.1]
      exact ih h.2

theorem trimEnd_append_of_isBlankText (text : List Char) {blank : List Char}
    (h : isBlankText blank) : trimEnd (text ++ blank) = trimEnd text := by
  have hreverse : isBlankText blank.reverse := by simpa [isBlankText] using h
  have := trimStart_append_of_isBlankText hreverse text.reverse
  simp only [trimStart] at this
  rw [trimEnd, trimEnd, List.reverse_append, this]

theorem trim_append_of_isBlankText {blank : List Char} (h : isBlankText blank)
    (text : List Char) : trim (blank ++ text) = trim text := by
  rw [trim, trimStart_append_of_isBlankText h, trim]

/-- A text is split at its first character that is not white space. -/
theorem takeWhile_append_trimStart (text : List Char) :
    text.takeWhile isSpace ++ trimStart text = text :=
  List.takeWhile_append_dropWhile

theorem isBlankText_takeWhile (text : List Char) : isBlankText (text.takeWhile isSpace) :=
  List.all_takeWhile

theorem trimStart_eq_nil_iff (text : List Char) : trimStart text = [] ↔ isBlankText text := by
  simp [trimStart, isBlankText, List.dropWhile_eq_nil_iff]

theorem trimEnd_eq_nil_iff (text : List Char) : trimEnd text = [] ↔ isBlankText text := by
  rw [trimEnd, List.reverse_eq_nil_iff]
  exact (trimStart_eq_nil_iff text.reverse).trans (by simp [isBlankText])

theorem isBlankText_trimStart (text : List Char) :
    isBlankText (trimStart text) = isBlankText text := by
  have hsplit : isBlankText text =
      isBlankText (text.takeWhile isSpace ++ trimStart text) := by
    rw [takeWhile_append_trimStart]
  have hfront := isBlankText_takeWhile text
  rw [hsplit]
  simp only [isBlankText] at hfront ⊢
  rw [List.all_append, hfront, Bool.true_and]

/-- Nothing is left of a text exactly when it is blank. -/
theorem trim_eq_nil_iff (text : List Char) : trim text = [] ↔ isBlankText text := by
  rw [trim, trimEnd_eq_nil_iff, isBlankText_trimStart]

theorem trimStart_append_of_not_isBlankText {text : List Char} (h : ¬ isBlankText text)
    (more : List Char) : trimStart (text ++ more) = trimStart text ++ more := by
  have hne : trimStart text ≠ [] := fun hnil => h ((trimStart_eq_nil_iff text).1 hnil)
  rw [trimStart] at hne ⊢
  rw [List.dropWhile_append, if_neg (mt List.isEmpty_iff.1 hne), trimStart]

theorem trimEnd_append_of_not_isBlankText (front : List Char) {text : List Char}
    (h : ¬ isBlankText text) : trimEnd (front ++ text) = front ++ trimEnd text := by
  have hreverse : ¬ isBlankText text.reverse := by simpa [isBlankText] using h
  have hback := trimStart_append_of_not_isBlankText hreverse front.reverse
  rw [trimStart, trimStart] at hback
  rw [trimEnd, trimEnd, List.reverse_append, hback, List.reverse_append, List.reverse_reverse]

theorem trim_append_blank (text : List Char) {blank : List Char} (h : isBlankText blank) :
    trim (text ++ blank) = trim text := by
  by_cases htext : isBlankText text
  · have hboth : isBlankText (text ++ blank) := by
      rw [isBlankText, List.all_append, Bool.and_eq_true]
      exact ⟨htext, h⟩
    rw [(trim_eq_nil_iff _).2 hboth, (trim_eq_nil_iff _).2 htext]
  · rw [trim, trimStart_append_of_not_isBlankText htext, trimEnd_append_of_isBlankText _ h, trim]

/-- Only white space is behind what is left by trimming the end. -/
theorem exists_eq_trimEnd_append (text : List Char) :
    ∃ blank, isBlankText blank ∧ text = trimEnd text ++ blank := by
  refine ⟨(text.reverse.takeWhile isSpace).reverse, ?_, ?_⟩
  · simp [isBlankText]
  · have hsplit := takeWhile_append_trimStart text.reverse
    rw [trimEnd, ← List.reverse_append]
    rw [trimStart] at hsplit
    rw [hsplit, List.reverse_reverse]

theorem trim_trimEnd (text : List Char) : trim (trimEnd text) = trim text := by
  obtain ⟨blank, hblank, htext⟩ := exists_eq_trimEnd_append text
  calc
    trim (trimEnd text) = trim (trimEnd text ++ blank) := (trim_append_blank _ hblank).symm
    _ = trim text := by rw [← htext]

theorem trimEnd_cons_of_not_isSpace {c : Char} (h : isSpace c = false) (text : List Char) :
    trimEnd (c :: text) = c :: trimEnd text := by
  by_cases htext : isBlankText text
  · have hshort : trimEnd [c] = [c] := by simp [trimEnd, h]
    rw [← List.singleton_append, trimEnd_append_of_isBlankText _ htext, hshort,
      (trimEnd_eq_nil_iff text).2 htext]
  · exact trimEnd_append_of_not_isBlankText [c] htext

theorem mem_of_mem_trimEnd {text : List Char} {c : Char} (h : c ∈ trimEnd text) : c ∈ text := by
  obtain ⟨blank, -, htext⟩ := exists_eq_trimEnd_append text
  rw [htext]
  exact List.mem_append_left blank h

/-- What is left by trimming does not end with white space. -/
theorem not_isSpace_of_getLast?_trim {text : List Char} {c : Char}
    (h : (trim text).getLast? = some c) : isSpace c = false := by
  have hnot := List.head?_dropWhile_not isSpace (trimStart text).reverse
  rw [trim, trimEnd, List.getLast?_reverse] at h
  simpa [h] using hnot

/-! ### Texts that do not change -/

theorem not_isSpace_of_isDigit {c : Char} (h : c.isDigit) : isSpace c = false := by
  simp only [Char.isDigit, Bool.and_eq_true, decide_eq_true_eq] at h
  have hlow : 48 ≤ c.toNat := h.1
  have hhigh : c.toNat ≤ 57 := h.2
  simp [isSpace]
  omega

theorem toLower_of_isDigit {c : Char} (h : c.isDigit) : c.toLower = c := by
  simp only [Char.isDigit, Bool.and_eq_true, decide_eq_true_eq] at h
  refine dif_neg ?_
  rintro ⟨hupper, -⟩
  exact absurd (UInt32.le_trans hupper h.2) (by decide)

theorem trimStart_eq_self_of_not_isSpace {text : List Char}
    (h : ∀ c ∈ text.head?, isSpace c = false) : trimStart text = text := by
  cases text with
  | nil => rfl
  | cons c rest =>
      have hc := h c rfl
      simp [trimStart, hc]

theorem trimEnd_eq_self_of_not_isSpace {text : List Char}
    (h : ∀ c ∈ text.getLast?, isSpace c = false) : trimEnd text = text := by
  have hback : trimStart text.reverse = text.reverse :=
    trimStart_eq_self_of_not_isSpace (by rwa [List.head?_reverse])
  rw [trimStart] at hback
  rw [trimEnd, hback, List.reverse_reverse]

theorem trim_eq_self_of_not_isSpace {text : List Char} (h : ∀ c ∈ text, isSpace c = false) :
    trim text = text := by
  rw [trim, trimStart_eq_self_of_not_isSpace fun c hc => h c (List.mem_of_head? hc),
    trimEnd_eq_self_of_not_isSpace fun c hc => h c (List.mem_of_getLast? hc)]

end DocWeave
