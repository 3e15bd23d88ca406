/-
Reading part after part.  A few loops serve all readers, so that the argument that a
loop ends is made here and not for each of them.
-/
import DocWeave.Text.Remainder

namespace DocWeave

variable {m : Type → Type} [Monad m] {σ α ω : Type}

/-- A part of a row of parts: one more of them, or what ends them. -/
inductive Piece (α ω : Type) where
  | more (a : α)
  | last (w : ω)
deriving Repr, DecidableEq

@[specialize]
def readToLast (size : σ → Nat) (part : (s : σ) → m (Piece α ω × { t : σ // size t < size s }))
    (s : σ) : m ((List α × ω) × { t : σ // size t < size s }) := do
  match ← part s with
  | (.last w, rest) => return (([], w), rest)
  | (.more a, ⟨t, h⟩) =>
      let ((others, w), ⟨final, h'⟩) ← readToLast size part t
      return ((a :: others, w), ⟨final, Nat.lt_trans h' h⟩)
termination_by size s

@[specialize]
def readWhile (size : σ → Nat) (part : (s : σ) → m (Option (α × { t : σ // size t < size s })))
    (s : σ) : m (List α × { t : σ // size t ≤ size s }) := do
  match ← part s with
  | none => return ([], ⟨s, Nat.le_refl _⟩)
  | some (a, ⟨t, h⟩) =>
      let (others, ⟨final, h'⟩) ← readWhile size part t
      return (a :: others, ⟨final, Nat.le_of_lt (Nat.lt_of_le_of_lt h' h)⟩)
termination_by size s

@[specialize]
def readToEnd {γ : Type} (item : (c : γ) → (rest : List γ) → m (α × Remainder (c :: rest)))
    (text : List γ) : m (List α) :=
  match text with
  | [] => pure []
  | c :: rest => do
      let (first, ⟨after, _h⟩) ← item c rest
      return first :: (← readToEnd item after)
termination_by text.length
decreasing_by exact _h

end DocWeave
