/-
What one line of an outline says, and which lines say nothing.
-/
import DocWeave.Proofs.Text.Search
import DocWeave.Proofs.Text.Trim
import DocWeave.Yaml.Outline

namespace DocWeave.Yaml.Outline

/-- The lines of a text without comments and white space at their ends, as far as
anything is left of them. -/
def contentLines (text : String) : List (List Char) :=
  ((lines text.toList).map content).filter fun line => !isBlankText line

/-- A line with a colon: the blanks in front of it, the text up to its first colon and
the text behind it. -/
def lineOf (content : List Char) : Line :=
  let behind := (content.dropWhile (· ≠ ':')).drop 1
  { indent := utf8Length (content.takeWhile isSpace)
    key := String.ofList (unquote (trim (content.takeWhile (· ≠ ':'))))
    value := if isBlankText behind then none else some (scalar (trim behind)) }

theorem ne_colon_of_isSpace {c : Char} (h : isSpace c) : c ≠ ':' := by
  rintro rfl
  exact absurd h (by decide)

theorem ne_colon_of_mem_takeWhile_isSpace (content : List Char) :
    ∀ c ∈ content.takeWhile isSpace, decide (c ≠ ':') = true := by
  intro c hc
  simpa using ne_colon_of_isSpace (List.mem_takeWhile_imp hc)

theorem takeWhile_ne_colon_eq (content : List Char) :
    content.takeWhile (· ≠ ':') =
      content.takeWhile isSpace ++ (trimStart content).takeWhile (· ≠ ':') := by
  have hfront := ne_colon_of_mem_takeWhile_isSpace content
  rw [← List.takeWhile_append_of_pos hfront, takeWhile_append_trimStart]

theorem dropWhile_ne_colon_eq (content : List Char) :
    content.dropWhile (· ≠ ':') = (trimStart content).dropWhile (· ≠ ':') := by
  have hfront := ne_colon_of_mem_takeWhile_isSpace content
  have hdrop : (content.takeWhile isSpace ++ trimStart content).dropWhile (· ≠ ':') =
      (trimStart content).dropWhile (· ≠ ':') := List.dropWhile_append_of_pos hfront
  rwa [takeWhile_append_trimStart] at hdrop

/-- A line says what stands in front of its first colon and behind it. -/
theorem lineOf_append_colon {front : List Char} (h : ':' ∉ front) (behind : List Char) :
    lineOf (front ++ ':' :: behind) =
      { indent := utf8Length ((front ++ ':' :: behind).takeWhile isSpace)
        key := String.ofList (unquote (trim front))
        value := if isBlankText behind then none else some (scalar (trim behind)) } := by
  have hfront : ∀ c ∈ front, decide (c ≠ ':') = true := by
    intro c hc
    rw [decide_eq_true_eq]
    rintro rfl
    exact h hc
  obtain ⟨htake, hdrop⟩ := span_append hfront (':' :: behind) (by simp)
  rw [lineOf, htake, hdrop]
  rfl

/-- A line is read exactly when it has a colon. -/
theorem Line.read_eq (content : List Char) :
    Line.read content =
      if ':' ∈ content then .ok (lineOf content)
      else .error ⟨String.ofList (trimStart content)⟩ := by
  have hindent : (trimStart content).dropWhile (· ≠ ':') = [] ↔ ':' ∉ content := by
    rw [← dropWhile_ne_colon_eq, List.dropWhile_eq_nil_iff]
    constructor
    · intro h hcolon
      simpa using h ':' hcolon
    · intro h c hc
      have hne : c ≠ ':' := fun heq => h (heq ▸ hc)
      simpa using hne
  rw [Line.read]
  split
  next hnone => rw [if_neg (hindent.1 hnone)]
  next c rest hsome =>
      have hcolon : ':' ∈ content := by
        refine Decidable.byContradiction fun hne => ?_
        rw [hindent.2 hne] at hsome
        cases hsome
      have hkey : trim (content.takeWhile (· ≠ ':')) =
          trim ((trimStart content).takeWhile (· ≠ ':')) := by
        rw [takeWhile_ne_colon_eq, trim_append_of_isBlankText (isBlankText_takeWhile content)]
      have hbehind : (content.dropWhile (· ≠ ':')).drop 1 = rest := by
        rw [dropWhile_ne_colon_eq, hsome]
        rfl
      have hblank : (trim rest).isEmpty = isBlankText rest := by
        rw [Bool.eq_iff_iff, List.isEmpty_iff, trim_eq_nil_iff]
      rw [if_pos hcolon, lineOf, hkey, hbehind]
      simp only [hblank]

/-- Lines are taken in one after another, unless one of them has no colon. -/
theorem State.run_eq (state : State) (contents : List (List Char)) :
    State.run state contents =
      match contents.find? fun content => ':' ∉ content with
      | some content => .error ⟨String.ofList (trimStart content)⟩
      | none => .ok ((contents.map lineOf).foldl State.step state) := by
  induction contents generalizing state with
  | nil => rfl
  | cons content rest ih =>
      rw [State.run, Line.read_eq]
      by_cases h : ':' ∈ content
      · rw [if_pos h, List.find?_cons_of_neg (by simpa using h)]
        exact ih _
      · rw [if_neg h, List.find?_cons_of_pos (by simpa using h)]
        rfl

end DocWeave.Yaml.Outline
