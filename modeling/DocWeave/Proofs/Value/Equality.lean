/-
Structural equality, taken apart.  Equal documents have one kind; equal objects hold as many
members, and what one holds under a key equals what the other holds there.  A document equals
itself unless one of its doubles is not a number, and is like itself in any case.
-/
import Mathlib
import DocWeave.Proofs.Path.Keys
import DocWeave.Proofs.Value.ObjectKeys
import DocWeave.Value.Equality

namespace DocWeave

namespace Number

/-- Equality of numbers under which a double that is not a number is like any other of
these. -/
def alike : Number → Number → Bool
  | .float x, .float y => x == y || (x.isNaN && y.isNaN)
  | m, n => m.same n

theorem same_symm {m n : Number} (h : m.same n) : n.same m := by
  cases m with
  | integer i =>
      cases n with
      | integer j => exact BEq.symm (α := Int64) h
      | float y => cases h
  | float x =>
      cases n with
      | integer j => cases h
      | float y => exact BEq.symm (α := Float) h

theorem alike_self (m : Number) : m.alike m := by
  cases m with
  | integer i => exact beq_self_eq_true i
  | float x =>
      by_cases hnan : x = Float.nan
      · simp [alike, Float.isNaN_eq_decide_eq_nan, hnan]
      · simp [alike, Float.beq_self_iff.2 hnan]

theorem alike_symm {m n : Number} (h : m.alike n) : n.alike m := by
  cases m with
  | integer i =>
      cases n with
      | integer j => exact BEq.symm (α := Int64) h
      | float y => cases h
  | float x =>
      cases n with
      | integer j => cases h
      | float y =>
          simp only [alike, Bool.or_eq_true, Bool.and_eq_true] at h ⊢
          exact h.imp BEq.symm And.symm

/-- A number that equals itself equals what is like it. -/
theorem same_of_alike {m n : Number} (h : m.alike n) (hself : m.same m) : m.same n := by
  cases m with
  | integer i => exact h
  | float x =>
      cases n with
      | integer j => cases h
      | float y =>
          have hx : x ≠ Float.nan := Float.beq_self_iff.1 hself
          simpa [alike, same, Float.isNaN_eq_decide_eq_nan, hx] using h

end Number

namespace Value

/-- Equality of documents under which a double that is not a number is like any other of
these. -/
def alike : Value → Value → Bool :=
  sameBy Number.alike

variable {eq : Number → Number → Bool} {x y : Value}

theorem sameBy_of_kind_ne (h : x.kind ≠ y.kind) : x.sameBy eq y = false := by
  cases x <;> cases y <;> simp_all [sameBy, kind]

theorem kind_eq_of_sameBy (h : x.sameBy eq y) : x.kind = y.kind := by
  by_contra hkind
  rw [sameBy_of_kind_ne hkind] at h
  cases h

/-- Scalars are equal in either direction if numbers are. -/
theorem sameBy_symm_of_scalar (hsymm : ∀ m n, eq m n → eq n m) (hscalar : x.isContainer = false)
    (h : x.sameBy eq y) : y.sameBy eq x := by
  cases x <;> cases y <;> simp_all [sameBy, isContainer, kind]

/-- A scalar that equals itself equals what is like it. -/
theorem same_of_alike_of_scalar (hscalar : x.isContainer = false) (h : x.alike y)
    (hself : x.same x) : x.same y := by
  cases x <;> cases y <;> simp_all [alike, same, sameBy, isContainer, kind]
  case number.number m n => exact Number.same_of_alike h hself

theorem sameMembers_iff (members : List (String × Value)) (others : Entries Value) :
    sameMembers eq members others ↔
      ∀ member ∈ members, ∃ other, Entries.find? member.1 others = some other ∧
        member.2.sameBy eq other := by
  induction members with
  | nil => simp [sameMembers]
  | cons member rest ih =>
      obtain ⟨key, value⟩ := member
      rw [sameMembers, Bool.and_eq_true, ih, List.forall_mem_cons]
      apply and_congr_left
      intro _
      cases Entries.find? key others <;> simp

theorem sameBy_object_iff {members others : Entries Value} :
    (Value.object members).sameBy eq (.object others) ↔
      members.length = others.length ∧
        ∀ member ∈ members, ∃ other, Entries.find? member.1 others = some other ∧
          member.2.sameBy eq other := by
  rw [sameBy, Bool.and_eq_true, beq_iff_eq, sameMembers_iff]

theorem sameItems_self {items : List Value} (h : ∀ item ∈ items, item.sameBy eq item) :
    sameItems eq items items := by
  induction items with
  | nil => rfl
  | cons item rest ih =>
      obtain ⟨hitem, hrest⟩ := List.forall_mem_cons.1 h
      rw [sameItems, hitem, ih hrest]
      rfl

/-- A document equals itself if every number does. -/
theorem sameBy_self (hself : ∀ n, eq n n) {v : Value} (h : v.DistinctKeys) : v.sameBy eq v := by
  induction h with
  | null => rfl
  | bool b => exact beq_self_eq_true b
  | number n => exact hself n
  | string s => exact beq_self_eq_true s
  | array _ ih => exact sameItems_self ih
  | object hkeys _ ih =>
      rw [sameBy_object_iff]
      refine ⟨rfl, ?_⟩
      intro member hmember
      exact ⟨member.2, Entries.find?_of_mem hkeys hmember, ih member hmember⟩

/-- In a document that equals itself every member does. -/
theorem sameBy_self_of_get? {v child : Value} {key : String} (h : v.sameBy eq v)
    (hchild : v.get? key = some child) : child.sameBy eq child := by
  cases v with
  | object members =>
      obtain ⟨-, hmembers⟩ := sameBy_object_iff.1 h
      obtain ⟨other, hother, hsame⟩ := hmembers (key, child) (Entries.mem_of_find? hchild)
      rw [show Entries.find? key members = some child from hchild] at hother
      cases hother
      exact hsame
  | _ => cases hchild

/-- What a document that equals itself holds equals itself. -/
theorem sameBy_self_of_atKeys? {v x : Value} {keys : List String} (h : v.sameBy eq v)
    (hx : v.atKeys? keys = some x) : x.sameBy eq x := by
  induction keys generalizing v with
  | nil => exact Option.some.inj hx ▸ h
  | cons key rest ih =>
      obtain ⟨child, hchild, hrest⟩ := atKeys?_cons_eq_some_iff.1 hx
      exact ih (sameBy_self_of_get? h hchild) hrest

end Value

end DocWeave
