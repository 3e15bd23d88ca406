/-
Blocks of an outline without a stack.  A line that opens a block owns the deeper lines
that follow it, up to the first that is not deeper; the stack of open blocks gives the
same object.
-/
import DocWeave.Proofs.Outline.Line

namespace DocWeave.Yaml.Outline

def isDeeper (indent : Nat) (line : Line) : Bool :=
  indent < line.indent

/-- Writes lines into an object.  A line that opens a block takes the deeper lines behind
it into an object of its own. -/
def nest (entries : Entries Value) : List Line → Entries Value
  | [] => entries
  | line :: rest =>
      match line.value with
      | some value => nest (Entries.insert line.key value entries) rest
      | none =>
          let inner := nest [] (rest.takeWhile (isDeeper line.indent))
          nest (Entries.insert line.key (.object inner) entries)
            (rest.dropWhile (isDeeper line.indent))
termination_by lines => lines.length
decreasing_by
  · exact Nat.lt_succ_self _
  · exact Nat.lt_succ_of_le (List.takeWhile_sublist _).length_le
  · exact length_dropWhile_lt_cons _ line rest

@[simp] theorem nest_nil (entries : Entries Value) : nest entries [] = entries := by
  rw [nest]

theorem nest_cons_of_value {line : Line} {value : Value} (h : line.value = some value)
    (entries : Entries Value) (rest : List Line) :
    nest entries (line :: rest) = nest (Entries.insert line.key value entries) rest := by
  rw [nest, h]

theorem nest_cons_of_opener {line : Line} (h : line.value = none)
    (entries : Entries Value) (rest : List Line) :
    nest entries (line :: rest) =
      nest (Entries.insert line.key
          (.object (nest [] (rest.takeWhile (isDeeper line.indent)))) entries)
        (rest.dropWhile (isDeeper line.indent)) := by
  rw [nest, h]

/-- A line that opens a block is followed by the lines of the block, and by others from the
first that is not deeper. -/
theorem exists_nest_cons_of_opener {line : Line} (h : line.value = none) (rest : List Line) :
    ∃ inner outer, rest = inner ++ outer ∧ (∀ l ∈ inner, isDeeper line.indent l) ∧
      (∀ l ∈ outer.head?, ¬ isDeeper line.indent l) ∧
      ∀ entries, nest entries (line :: rest) =
        nest (Entries.insert line.key (.object (nest [] inner)) entries) outer := by
  refine ⟨rest.takeWhile (isDeeper line.indent), rest.dropWhile (isDeeper line.indent),
    List.takeWhile_append_dropWhile.symm, fun l hl => List.mem_takeWhile_imp hl, ?_,
    fun entries => nest_cons_of_opener h entries rest⟩
  intro l hl
  have hnot := List.head?_dropWhile_not (isDeeper line.indent) rest
  rw [Option.mem_def] at hl
  simpa [hl] using hnot

/-! ### The stack of open blocks -/

theorem State.step_of_value {line : Line} {value : Value} (h : line.value = some value)
    {state dedented : State} (hdedent : dedent line.indent state.1 state.2 = dedented) :
    state.step line = (Entries.insert line.key value dedented.1, dedented.2) := by
  rw [State.step, hdedent, h]

theorem State.step_of_opener {line : Line} (h : line.value = none)
    {state dedented : State} (hdedent : dedent line.indent state.1 state.2 = dedented) :
    state.step line = ([], ⟨line.indent, line.key, dedented.1⟩ :: dedented.2) := by
  rw [State.step, hdedent, h]

theorem dedent_of_le {indent : Nat} {opener : Opener} (h : indent ≤ opener.indent)
    (current : Entries Value) (openers : List Opener) :
    dedent indent current (opener :: openers) =
      dedent indent (opener.close current) openers := by
  rw [dedent, if_pos h]

theorem dedent_of_lt {indent : Nat} {opener : Opener} (h : opener.indent < indent)
    (current : Entries Value) (openers : List Opener) :
    dedent indent current (opener :: openers) = (current, opener :: openers) := by
  rw [dedent, if_neg (Nat.not_le_of_lt h)]

/-- A line that is not deeper than the innermost open block ends that block. -/
theorem State.step_of_le {line : Line} {opener : Opener} (h : line.indent ≤ opener.indent)
    (current : Entries Value) (openers : List Opener) :
    State.step (current, opener :: openers) line =
      State.step (opener.close current, openers) line := by
  rw [State.step, State.step, dedent_of_le h]

/-- Deeper lines, and with them the lines of deeper blocks, come before the others. -/
theorem takeWhile_isDeeper_of_lt {low high : Nat} (h : low < high) (ls : List Line) :
    (ls.takeWhile (isDeeper low)).takeWhile (isDeeper high) = ls.takeWhile (isDeeper high) ∧
      (ls.takeWhile (isDeeper low)).dropWhile (isDeeper high) =
        (ls.dropWhile (isDeeper high)).takeWhile (isDeeper low) ∧
      (ls.dropWhile (isDeeper high)).dropWhile (isDeeper low) =
        ls.dropWhile (isDeeper low) := by
  induction ls with
  | nil => simp
  | cons line rest ih =>
      obtain ⟨htake, hdrop, hrest⟩ := ih
      by_cases hhigh : isDeeper high line
      · have hlow : isDeeper low line := by
          simp only [isDeeper, decide_eq_true_eq] at hhigh ⊢
          omega
        simp [hhigh, hlow, htake, hdrop, hrest]
      · by_cases hlow : isDeeper low line <;> simp [hhigh, hlow]

/-- The innermost open block takes the lines that are deeper than its opening line and is
stored in the block around it at the first line that is not. -/
theorem State.foldl_step_opener (current : Entries Value) (opener : Opener)
    (openers : List Opener) (ls : List Line) :
    State.finish (ls.foldl State.step (current, opener :: openers)) =
      State.finish ((ls.dropWhile (isDeeper opener.indent)).foldl State.step
        (opener.close (nest current (ls.takeWhile (isDeeper opener.indent))), openers)) := by
  induction hn : ls.length using Nat.strong_induction_on
    generalizing current opener openers ls with
  | _ n ih =>
      cases ls with
      | nil => simp [State.finish]
      | cons line rest =>
          by_cases hdeep : isDeeper opener.indent line
          · have hlt : opener.indent < line.indent := by simpa [isDeeper] using hdeep
            have hdedent := dedent_of_lt hlt current openers
            rw [List.length_cons] at hn
            rw [List.dropWhile_cons_of_pos hdeep, List.takeWhile_cons_of_pos hdeep,
              List.foldl_cons]
            cases hvalue : line.value with
            | some value =>
                rw [State.step_of_value hvalue hdedent, nest_cons_of_value hvalue]
                exact ih rest.length (by omega) _ _ _ _ rfl
            | none =>
                -- first the block that this line opens ends, then the one around it
                have houter : (rest.dropWhile (isDeeper line.indent)).length < n := by
                  have := length_dropWhile_le (isDeeper line.indent) rest
                  omega
                obtain ⟨htake, hdrop, hrest⟩ := takeWhile_isDeeper_of_lt hlt rest
                rw [State.step_of_opener hvalue hdedent, nest_cons_of_opener hvalue,
                  ih rest.length (by omega) _ _ _ _ rfl, ih _ houter _ _ _ _ rfl, htake,
                  hdrop, hrest]
                rfl
          · have hle : line.indent ≤ opener.indent := by
              simpa [isDeeper] using hdeep
            rw [List.dropWhile_cons_of_neg hdeep, List.takeWhile_cons_of_neg hdeep, nest_nil,
              List.foldl_cons, List.foldl_cons, State.step_of_le hle]

theorem State.finish_foldl_step (current : Entries Value) (ls : List Line) :
    State.finish (ls.foldl State.step (current, [])) = nest current ls := by
  induction hn : ls.length using Nat.strong_induction_on generalizing current ls with
  | _ n ih =>
      cases ls with
      | nil => simp [State.finish]
      | cons line rest =>
          have hdedent : dedent line.indent current [] = (current, []) := rfl
          rw [List.length_cons] at hn
          rw [List.foldl_cons]
          cases hvalue : line.value with
          | some value =>
              rw [State.step_of_value hvalue hdedent, nest_cons_of_value hvalue]
              exact ih rest.length (by omega) _ _ rfl
          | none =>
              have houter : (rest.dropWhile (isDeeper line.indent)).length < n := by
                have := length_dropWhile_le (isDeeper line.indent) rest
                omega
              rw [State.step_of_opener hvalue hdedent, nest_cons_of_opener hvalue,
                State.foldl_step_opener, ih _ houter _ _ rfl]
              rfl

end DocWeave.Yaml.Outline
