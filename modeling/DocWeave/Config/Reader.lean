/-
Settings from a settings file.  Keys that are not known do not count, and what is
missing keeps its default.
-/
import DocWeave.Config.Basic
import DocWeave.Toml.Reader

namespace DocWeave.Config

/-- A cap: a whole number that is not negative. -/
def cap? : Toml.Node → Option Nat
  | .number (.integer n) => if 0 ≤ n then some n.toInt.toNat else none
  | _ => none

def flag? : Toml.Node → Option Bool
  | .boolean b => some b
  | _ => none

def share? : Toml.Node → Option Float
  | .number n => some n.toFloat
  | _ => none

def field? {α : Type} (members : Toml.Members) (key : String) (default : α)
    (read? : Toml.Node → Option α) : Option α :=
  match members.find? key with
  | some node => read? node
  | none => some default

def ofToml? (text : String) : Option Config := do
  let members ← Toml.parse? text
  let start : Config := {}
  return { start with
    depthCap := ← field? members "depth_cap" start.depthCap cap?
    arrayCap := ← field? members "array_cap" start.arrayCap cap?
    sanitizeCsv := ← field? members "sanitize_csv" start.sanitizeCsv flag?
    nonprintableThreshold :=
      ← field? members "nonprintable_threshold" start.nonprintableThreshold share? }

end DocWeave.Config
