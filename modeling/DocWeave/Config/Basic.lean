/-
What can be set about a run: how deep and how wide a projection may go, what
happens to table cells, and how much binary data is tolerated.
-/
import DocWeave.Decimal.Layout
import DocWeave.Formula
import DocWeave.TextCheck

namespace DocWeave

structure Config where
  /-- The deepest level of a template that is followed. -/
  depthCap : Nat := 10
  /-- The most matches that one leaf of a template returns. -/
  arrayCap : Nat := 1000
  /-- Neutralize formulas in table cells. -/
  sanitizeCsv : Bool := true
  /-- The share of control characters from which on input counts as binary. -/
  nonprintableThreshold : Float := TextCheck.defaultThreshold
  /-- What to do with table cells instead of neutralizing formulas. -/
  cellHook : Option (String → String) := none

namespace Config

/-- The function for table cells, if there is one: an explicit one goes before the
neutralizing of formulas. -/
def cellSanitizer (config : Config) : Option (String → String) :=
  match config.cellHook with
  | some hook => some hook
  | none => if config.sanitizeCsv then some Formula.neutralize else none

def sanitizeCell (config : Config) (cell : String) : String :=
  match config.cellSanitizer with
  | some sanitize => sanitize cell
  | none => cell

def describe (config : Config) : String :=
  "Config \x7b depth_cap: " ++ Nat.repr config.depthCap ++
    ", array_cap: " ++ Nat.repr config.arrayCap ++
    ", sanitize_csv: " ++ toString config.sanitizeCsv ++
    ", nonprintable_threshold: " ++
      Decimal.Layout.marked.text config.nonprintableThreshold ++
    ", csv_cell_sanitizer: " ++ toString config.cellHook.isSome ++ " \x7d"

/-- How a threshold stands in a settings file: in full, with a fraction. -/
def thresholdLayout : Decimal.Layout :=
  { Decimal.Layout.plain with wholeMark := ".0", nan := "nan" }

/-- The settings as a settings file; the function for table cells has no text. -/
def toToml (config : Config) : String :=
  "depth_cap = " ++ Nat.repr config.depthCap ++
    "\narray_cap = " ++ Nat.repr config.arrayCap ++
    "\nsanitize_csv = " ++ toString config.sanitizeCsv ++
    "\nnonprintable_threshold = " ++ thresholdLayout.text config.nonprintableThreshold ++ "\n"

end Config

end DocWeave
