/-
Following a path through a document.  Every match takes each step; a match that
cannot take it is dropped, and the matches stay in the order of the document.
-/
import DocWeave.Path.Reader
import DocWeave.Value.Basic

namespace DocWeave

/-- The item at an index, which counts from the end when negative. -/
def itemAt? (items : List Value) (i : Int64) : Option Value :=
  let position := if i < 0 then Int64.ofNat items.length + i else i
  if position < 0 then none else items[position.toNatClampNeg]?

def Step.select (step : Step) (v : Value) : List Value :=
  match step, v with
  | .property name, v => (v.get? name).toList
  | .index i, .array items => (itemAt? items i).toList
  | .wildcard, .array items => items
  | _, _ => []

def Path.select (path : Path) (root : Value) : List Value :=
  path.foldl (fun found step => found.flatMap step.select) [root]

def Path.evaluate (text : String) (root : Value) : Except PathError (List Value) :=
  (Path.parse text).map fun path => path.select root

@[simp] theorem Path.select_nil (root : Value) : Path.select [] root = [root] := rfl

theorem Path.foldl_select_flatMap (path : Path) (found : List Value) :
    path.foldl (fun found step => found.flatMap step.select) found =
      found.flatMap path.select := by
  induction path generalizing found with
  | nil =>
      change found = found.flatMap fun v => [v]
      simp
  | cons step rest ih =>
      have hstep (v : Value) : Path.select (step :: rest) v =
          (step.select v).flatMap (Path.select rest) := by
        rw [Path.select, List.foldl_cons, ih]
        simp
      rw [List.foldl_cons, ih, List.flatMap_assoc]
      congr 1
      funext v
      exact (hstep v).symm

/-- The matches of a longer path are those of its second part on each match of its
first part, in order. -/
theorem Path.select_append (first second : Path) (root : Value) :
    Path.select (first ++ second) root =
      (Path.select first root).flatMap (Path.select second) := by
  rw [Path.select, List.foldl_append]
  exact Path.foldl_select_flatMap second _

end DocWeave
