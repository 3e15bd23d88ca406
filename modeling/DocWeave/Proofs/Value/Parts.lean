/-
What lies inside a document: the values that a container holds directly, conditions that
hold at every depth, and how deep containers nest.
-/
import DocWeave.Proofs.Value.ObjectKeys

namespace DocWeave.Value

def parts : Value → List Value
  | .array items => items
  | .object members => members.map Prod.snd
  | .null | .bool _ | .number _ | .string _ => []

inductive Everywhere (p : Value → Prop) : Value → Prop
  | intro {v : Value} (here : p v) (inside : ∀ part ∈ v.parts, Everywhere p part) :
      Everywhere p v

variable {p : Value → Prop}

theorem everywhere_iff (v : Value) :
    v.Everywhere p ↔ p v ∧ ∀ part ∈ v.parts, part.Everywhere p := by
  constructor
  · rintro ⟨here, inside⟩
    exact ⟨here, inside⟩
  · rintro ⟨here, inside⟩
    exact ⟨here, inside⟩

theorem everywhere_array_iff (items : List Value) :
    (Value.array items).Everywhere p ↔
      p (.array items) ∧ ∀ item ∈ items, item.Everywhere p :=
  everywhere_iff (.array items)

theorem everywhere_object_iff (members : Entries Value) :
    (Value.object members).Everywhere p ↔
      p (.object members) ∧ ∀ member ∈ members, member.2.Everywhere p := by
  rw [everywhere_iff, parts, List.forall_mem_map]

theorem everywhere_iff_of_parts_eq_nil {v : Value} (h : v.parts = []) :
    v.Everywhere p ↔ p v := by
  rw [everywhere_iff, h]
  simp

section

variable [DecidablePred p]

mutual

def decideEverywhere : (v : Value) → Decidable (v.Everywhere p)
  | .array items =>
      have := decideEverywhereItems items
      decidable_of_iff' _ (everywhere_array_iff items)
  | .object members =>
      have := decideEverywhereMembers members
      decidable_of_iff' _ (everywhere_object_iff members)
  | .null => decidable_of_iff' (p .null) (everywhere_iff_of_parts_eq_nil rfl)
  | .bool b => decidable_of_iff' (p (.bool b)) (everywhere_iff_of_parts_eq_nil rfl)
  | .number n => decidable_of_iff' (p (.number n)) (everywhere_iff_of_parts_eq_nil rfl)
  | .string s => decidable_of_iff' (p (.string s)) (everywhere_iff_of_parts_eq_nil rfl)

def decideEverywhereItems :
    (items : List Value) → Decidable (∀ item ∈ items, item.Everywhere p)
  | [] => .isTrue (by simp)
  | item :: rest =>
      have := decideEverywhere item
      have := decideEverywhereItems rest
      decidable_of_iff' _ List.forall_mem_cons

def decideEverywhereMembers : (members : List (String × Value)) →
    Decidable (∀ member ∈ members, member.2.Everywhere p)
  | [] => .isTrue (by simp)
  | (_, value) :: rest =>
      have := decideEverywhere value
      have := decideEverywhereMembers rest
      decidable_of_iff' (value.Everywhere p ∧ ∀ member ∈ rest, member.2.Everywhere p)
        List.forall_mem_cons

end

instance : DecidablePred (Everywhere p) :=
  decideEverywhere

end

/-! ### Nesting -/

mutual

/-- How many containers are open at once, at most. -/
def nesting : Value → Nat
  | .array items => nestingOfItems items + 1
  | .object members => nestingOfMembers members + 1
  | .null | .bool _ | .number _ | .string _ => 0

def nestingOfItems : List Value → Nat
  | [] => 0
  | item :: rest => max item.nesting (nestingOfItems rest)

def nestingOfMembers : List (String × Value) → Nat
  | [] => 0
  | (_, value) :: rest => max value.nesting (nestingOfMembers rest)

end

theorem nestingOfItems_le_iff {items : List Value} {depth : Nat} :
    nestingOfItems items ≤ depth ↔ ∀ item ∈ items, item.nesting ≤ depth := by
  induction items with
  | nil => simp [nestingOfItems]
  | cons item rest ih => rw [nestingOfItems, Nat.max_le, ih, List.forall_mem_cons]

theorem nestingOfMembers_le_iff {members : Entries Value} {depth : Nat} :
    nestingOfMembers members ≤ depth ↔ ∀ member ∈ members, member.2.nesting ≤ depth := by
  induction members with
  | nil => simp [nestingOfMembers]
  | cons member rest ih => rw [nestingOfMembers, Nat.max_le, ih, List.forall_mem_cons]

theorem nesting_array_le_iff {items : List Value} {depth : Nat} :
    (Value.array items).nesting ≤ depth ↔
      ∃ below, depth = below + 1 ∧ ∀ item ∈ items, item.nesting ≤ below := by
  rw [nesting]
  cases depth with
  | zero => simp
  | succ below => simp [nestingOfItems_le_iff]

theorem nesting_object_le_iff {members : Entries Value} {depth : Nat} :
    (Value.object members).nesting ≤ depth ↔
      ∃ below, depth = below + 1 ∧ ∀ member ∈ members, member.2.nesting ≤ below := by
  rw [nesting]
  cases depth with
  | zero => simp
  | succ below => simp [nestingOfMembers_le_iff]

end DocWeave.Value
