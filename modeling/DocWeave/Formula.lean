/-
Keeping spreadsheets from evaluating cells.
-/

namespace DocWeave.Formula

/-- The characters that make a cell a formula when they come first. -/
def marks : List Char := ['=', '+', '-', '@']

def isFormula (cell : String) : Bool :=
  match cell.toList with
  | [] => false
  | c :: _ => marks.contains c

/-- Puts an apostrophe in front of a formula, which makes it plain text. -/
def neutralize (cell : String) : String :=
  if isFormula cell then "'" ++ cell else cell

/-- What was neutralized is no formula. -/
theorem isFormula_neutralize (cell : String) : isFormula (neutralize cell) = false := by
  unfold neutralize
  split
  next =>
    have hlist : ("'" ++ cell).toList = '\'' :: cell.toList := by simp
    rw [isFormula, hlist]
    change marks.contains '\'' = false
    decide
  next h => exact Bool.eq_false_iff.2 h

end DocWeave.Formula
