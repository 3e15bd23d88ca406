/-
Lines of a text that is put together from lines: each is found again, up to a carriage
return in front of its line feed.
-/
import DocWeave.Text.Basic

namespace DocWeave

def dropReturn (line : List Char) : List Char :=
  if line.getLast? = some '\r' then line.dropLast else line

@[simp] theorem dropReturn_append_return (line : List Char) :
    dropReturn (line ++ ['\r']) = line := by
  simp [dropReturn]

theorem dropReturn_eq_self {line : List Char} (h : line.getLast? ≠ some '\r') :
    dropReturn line = line :=
  if_neg h

theorem mem_of_mem_dropReturn {line : List Char} {c : Char} (h : c ∈ dropReturn line) :
    c ∈ line := by
  unfold dropReturn at h
  split at h
  · exact (List.dropLast_sublist line).mem h
  · exact h

theorem dropReturn_cons_cons (c d : Char) (rest : List Char) :
    dropReturn (c :: d :: rest) = c :: dropReturn (d :: rest) := by
  simp only [dropReturn, List.getLast?_cons_cons, List.dropLast_cons_cons]
  split <;> rfl

theorem lines_cons {c : Char} {rest : List Char} (hfeed : c ≠ '\n')
    (hreturn : c = '\r' → rest.head? ≠ some '\n') :
    lines (c :: rest) = consLine c (lines rest) := by
  rw [lines]
  · exact hfeed
  · rintro after rfl rfl
    exact hreturn rfl rfl

/-- A line ends at its line feed. -/
theorem lines_append_feed {line : List Char} (h : '\n' ∉ line) (rest : List Char) :
    lines (line ++ '\n' :: rest) = dropReturn line :: lines rest := by
  induction line with
  | nil => rfl
  | cons c line ih =>
      obtain ⟨hc, hline⟩ := not_or.1 (mt List.mem_cons.2 h)
      cases line with
      | nil =>
          by_cases hreturn : c = '\r'
          · rw [hreturn]
            rfl
          · have hlast : dropReturn [c] = [c] := dropReturn_eq_self (by simpa using hreturn)
            rw [List.cons_append, lines_cons (Ne.symm hc) fun heq => absurd heq hreturn,
              ih hline, hlast]
            rfl
      | cons d more =>
          have hd : d ≠ '\n' := fun heq => hline (heq ▸ List.mem_cons_self)
          rw [List.cons_append, lines_cons (Ne.symm hc) fun _ => by simpa using hd, ih hline,
            dropReturn_cons_cons]
          rfl

/-- The last line needs no line feed. -/
theorem lines_of_not_mem_feed {line : List Char} (h : '\n' ∉ line) (hne : line ≠ []) :
    lines line = [line] := by
  induction line with
  | nil => exact absurd rfl hne
  | cons c line ih =>
      obtain ⟨hc, hline⟩ := not_or.1 (mt List.mem_cons.2 h)
      have hhead : line.head? ≠ some '\n' := fun heq => hline (List.mem_of_head? heq)
      rw [lines_cons (Ne.symm hc) fun _ => hhead]
      cases line with
      | nil => rfl
      | cons d more =>
          rw [ih hline (List.cons_ne_nil d more)]
          rfl

end DocWeave
