/-
Reading part after part, one part at a time: when a part is read, the parts of the rest
follow it.
-/
import DocWeave.Proofs.Outcome
import DocWeave.Text.Repeat

namespace DocWeave

variable {ε σ α ω γ : Type}

@[simp] theorem readToEnd_nil
    (item : (c : γ) → (rest : List γ) → Except ε (α × Remainder (c :: rest))) :
    readToEnd item [] = .ok [] := by
  rw [readToEnd]
  rfl

theorem readToEnd_of_ok
    {item : (c : γ) → (rest : List γ) → Except ε (α × Remainder (c :: rest))}
    {c : γ} {rest : List γ} {a : α} {after : Remainder (c :: rest)}
    (h : item c rest = .ok (a, after)) :
    readToEnd item (c :: rest) = (readToEnd item after.1).map (a :: ·) := by
  rw [readToEnd, h]
  cases hrest : readToEnd item after.1 <;> simp [bind, Except.bind, hrest] <;> rfl

theorem exists_of_readToEnd_cons
    {item : (c : γ) → (rest : List γ) → Except ε (α × Remainder (c :: rest))}
    {c : γ} {rest : List γ} {all : List α} (h : readToEnd item (c :: rest) = .ok all) :
    ∃ a after others, item c rest = .ok (a, after) ∧ readToEnd item after.1 = .ok others ∧
      all = a :: others := by
  cases hfirst : item c rest with
  | error e =>
      rw [readToEnd, hfirst] at h
      cases h
  | ok found =>
      obtain ⟨a, after⟩ := found
      rw [readToEnd_of_ok hfirst] at h
      obtain ⟨others, hothers, heq⟩ := exists_of_map_eq_ok h
      exact ⟨a, after, others, rfl, hothers, heq.symm⟩

variable {size : σ → Nat}
  {part : (s : σ) → Except ε (Piece α ω × { t : σ // size t < size s })} {s : σ}

theorem readToLast_of_last {w : ω} {after : { t : σ // size t < size s }}
    (h : part s = .ok (.last w, after)) :
    readToLast size part s = .ok (([], w), after) := by
  rw [readToLast, h]
  rfl

theorem readToLast_of_more {a : α} {after : { t : σ // size t < size s }} {others : List α}
    {w : ω} {final : { t : σ // size t < size after.1 }} (h : part s = .ok (.more a, after))
    (hrest : readToLast size part after.1 = .ok ((others, w), final)) :
    readToLast size part s =
      .ok ((a :: others, w), ⟨final.1, Nat.lt_trans final.2 after.2⟩) := by
  rw [readToLast, h]
  simp [bind, Except.bind, hrest]
  rfl

/-- A row of parts is its last part alone, or one more part and a row. -/
theorem readToLast_eq_ok {all : List α} {w : ω} {final : { t : σ // size t < size s }}
    (h : readToLast size part s = .ok ((all, w), final)) :
    (∃ after, part s = .ok (.last w, after) ∧ all = [] ∧ final.1 = after.1) ∨
      ∃ a after others final', part s = .ok (.more a, after) ∧
        readToLast size part after.1 = .ok ((others, w), final') ∧ all = a :: others ∧
          final.1 = final'.1 := by
  rw [readToLast] at h
  obtain ⟨⟨piece, after⟩, hpart, h⟩ := exists_of_bind_eq_ok h
  cases piece with
  | last w' =>
      cases h
      exact .inl ⟨_, hpart, rfl, rfl⟩
  | more a =>
      obtain ⟨⟨⟨others, w'⟩, final'⟩, hothers, h⟩ := exists_of_bind_eq_ok h
      cases h
      exact .inr ⟨a, after, others, final', hpart, hothers, rfl, rfl⟩

end DocWeave
