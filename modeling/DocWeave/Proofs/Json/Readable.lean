/-
What a JSON text can be read as.  A value that comes out of the reader is put together from
words, strings and finite numbers; its containers nest no deeper than the budget, and its
objects are written pair by pair.
-/
import DocWeave.Json.Reader
import DocWeave.Proofs.Text.Repeat
import DocWeave.Proofs.Value.WellFormed

namespace DocWeave

namespace Json

/-- The values that can be read with a budget of open containers. -/
inductive Readable : Nat → Value → Prop
  | null {depth : Nat} : Readable depth .null
  | bool {depth : Nat} (b : Bool) : Readable depth (.bool b)
  | number {depth : Nat} {n : Number} (h : (Value.number n).WellFormed) :
      Readable depth (.number n)
  | string {depth : Nat} (s : String) : Readable depth (.string s)
  | array {depth : Nat} {items : List Value} (h : ∀ item ∈ items, Readable depth item) :
      Readable (depth + 1) (.array items)
  | object {depth : Nat} {pairs : List (String × Value)}
      (h : ∀ pair ∈ pairs, Readable depth pair.2) :
      Readable (depth + 1) (.object (Entries.ofPairs pairs))

/-! ### Parts of containers -/

section Loops

variable {ρ α : Type} {syntaxError : Reason → ρ} {part : Reader ρ α}

theorem readItems_eq_ok {first : Bool} {text : List Char} {items : List α}
    {rest : Remainder text} (h : readItems syntaxError part first text = .ok (items, rest)) :
    items = [] ∨ ∃ (before : List Char) (item : α) (after : Remainder before)
      (others : List α) (final : Remainder after.1), items = item :: others ∧
        part before = .ok (item, after) ∧
        readItems syntaxError part false after.1 = .ok (others, final) := by
  rw [readItems] at h
  obtain ⟨next, -, h⟩ := exists_of_bind_eq_ok h
  cases next with
  | closed rest =>
      cases h
      exact Or.inl rfl
  | more before =>
      obtain ⟨⟨item, after⟩, hitem, h⟩ := exists_of_bind_eq_ok h
      obtain ⟨⟨others, final⟩, hothers, h⟩ := exists_of_bind_eq_ok h
      cases h
      exact Or.inr ⟨before.1, item, after, others, final, rfl, hitem, hothers⟩

theorem readMembers_eq_ok {first : Bool} {text : List Char} {members : List (String × α)}
    {rest : Remainder text}
    (h : readMembers syntaxError part first text = .ok (members, rest)) :
    members = [] ∨ ∃ (before : List Char) (key : String) (value : α) (after : Remainder before)
      (others : List (String × α)) (final : Remainder after.1),
        members = (key, value) :: others ∧ part before = .ok (value, after) ∧
        readMembers syntaxError part false after.1 = .ok (others, final) := by
  rw [readMembers] at h
  obtain ⟨next, -, h⟩ := exists_of_bind_eq_ok h
  cases next with
  | closed rest =>
      cases h
      exact Or.inl rfl
  | more before =>
      obtain ⟨⟨key, behindKey⟩, -, h⟩ := exists_of_bind_eq_ok h
      obtain ⟨behindColon, -, h⟩ := exists_of_bind_eq_ok h
      obtain ⟨⟨value, after⟩, hvalue, h⟩ := exists_of_bind_eq_ok h
      obtain ⟨⟨others, final⟩, hothers, h⟩ := exists_of_bind_eq_ok h
      cases h
      exact Or.inr ⟨behindColon.1, String.ofList key, value, after, others, final, rfl, hvalue,
        hothers⟩

variable {p : α → Prop}

/-- What holds of every part that can be read holds of the items of a list. -/
theorem forall_of_readItems (hpart : ∀ text x rest, part text = .ok (x, rest) → p x)
    {first : Bool} {text : List Char} {items : List α} {rest : Remainder text}
    (h : readItems syntaxError part first text = .ok (items, rest)) :
    ∀ item ∈ items, p item := by
  induction items generalizing first text with
  | nil => simp
  | cons item others ih =>
      rcases readItems_eq_ok h with hnil | ⟨before, x, after, xs, final, hcons, hx, hxs⟩
      · cases hnil
      · cases hcons
        exact List.forall_mem_cons.2 ⟨hpart before item after hx, ih hxs⟩

theorem forall_of_readMembers (hpart : ∀ text x rest, part text = .ok (x, rest) → p x)
    {first : Bool} {text : List Char} {members : List (String × α)} {rest : Remainder text}
    (h : readMembers syntaxError part first text = .ok (members, rest)) :
    ∀ member ∈ members, p member.2 := by
  induction members generalizing first text with
  | nil => simp
  | cons member others ih =>
      rcases readMembers_eq_ok h with hnil | ⟨before, key, x, after, xs, final, hcons, hx, hxs⟩
      · cases hnil
      · cases hcons
        exact List.forall_mem_cons.2 ⟨hpart before x after hx, ih hxs⟩

end Loops

/-! ### Values -/

theorem wellFormed_of_toNumber? {numeral : Numeral} {n : Number}
    (h : numeral.toNumber? = some n) : (Value.number n).WellFormed := by
  cases numeral with
  | whole i =>
      rw [Numeral.toNumber?] at h
      cases hinteger : Number.ofInt? i with
      | some m =>
          rw [hinteger] at h
          cases h
          exact Value.wellFormed_of_ofInt? hinteger
      | none =>
          rw [hinteger] at h
          exact Value.wellFormed_of_ofFloat? h
  | real x => exact Value.wellFormed_of_ofFloat? h

theorem readable_of_readNumber {text : List Char} {v : Value} {rest : Remainder text}
    (h : readNumber text = .ok (v, rest)) (depth : Nat) : Readable depth v := by
  unfold readNumber at h
  split at h
  next => cases h
  next numeral after hread =>
    split at h
    next n hn =>
      cases h
      exact .number (wellFormed_of_toNumber? hn)
    next => cases h

theorem eq_of_readWord {letters : String} {value v : Value} {text : List Char}
    {rest : Rest text} (h : readWord letters value text = .ok (v, rest)) : v = value := by
  obtain ⟨after, -, heq⟩ := exists_of_map_eq_ok h
  cases heq
  rfl

/-- A value is read as a scalar, or from its parts with one level less. -/
theorem readValue_eq_ok {depth : Nat} {text : List Char} {v : Value} {rest : Remainder text}
    (h : readValue depth text = .ok (v, rest)) :
    (∀ depth, Readable depth v) ∨ ∃ below, depth = below + 1 ∧
      ((∃ body items after, readItems id (readValue below) true body = .ok (items, after) ∧
          v = .array items) ∨
        ∃ body pairs after, readMembers id (readValue below) true body = .ok (pairs, after) ∧
          v = .object (Entries.ofPairs pairs)) := by
  unfold readValue at h
  split at h
  next => cases h
  next c body hbody =>
    split at h
    next =>
      obtain ⟨⟨w, after⟩, hword, heq⟩ := exists_of_map_eq_ok h
      cases heq
      exact Or.inl fun depth => eq_of_readWord hword ▸ .null
    split at h
    next =>
      obtain ⟨⟨w, after⟩, hword, heq⟩ := exists_of_map_eq_ok h
      cases heq
      exact Or.inl fun depth => eq_of_readWord hword ▸ .bool true
    split at h
    next =>
      obtain ⟨⟨w, after⟩, hword, heq⟩ := exists_of_map_eq_ok h
      cases heq
      exact Or.inl fun depth => eq_of_readWord hword ▸ .bool false
    split at h
    next =>
      obtain ⟨⟨w, after⟩, hnumber, heq⟩ := exists_of_map_eq_ok h
      cases heq
      exact Or.inl fun depth => readable_of_readNumber hnumber depth
    split at h
    next =>
      obtain ⟨⟨s, after⟩, -, heq⟩ := exists_of_map_eq_ok h
      cases heq
      exact Or.inl fun depth => .string (String.ofList s)
    split at h
    next =>
      cases depth with
      | zero => cases h
      | succ below =>
          obtain ⟨⟨items, after⟩, hitems, heq⟩ := exists_of_map_eq_ok h
          cases heq
          exact Or.inr ⟨below, rfl, Or.inl ⟨body, items, after, hitems, rfl⟩⟩
    split at h
    next =>
      cases depth with
      | zero => cases h
      | succ below =>
          obtain ⟨⟨pairs, after⟩, hpairs, heq⟩ := exists_of_map_eq_ok h
          cases heq
          exact Or.inr ⟨below, rfl, Or.inr ⟨body, pairs, after, hpairs, rfl⟩⟩
    next => cases h

/-- Whatever is read with a budget is a value of that budget. -/
theorem readable_of_readValue {depth : Nat} {text : List Char} {v : Value}
    {rest : Remainder text} (h : readValue depth text = .ok (v, rest)) : Readable depth v := by
  induction depth generalizing text v with
  | zero =>
      rcases readValue_eq_ok h with hscalar | ⟨below, hdepth, -⟩
      · exact hscalar 0
      · cases hdepth
  | succ depth ih =>
      rcases readValue_eq_ok h with hscalar | ⟨below, hdepth, hlist | hobject⟩
      · exact hscalar (depth + 1)
      · cases hdepth
        obtain ⟨body, items, after, hitems, rfl⟩ := hlist
        exact .array (forall_of_readItems (fun _ _ _ hpart => ih hpart) hitems)
      · cases hdepth
        obtain ⟨body, pairs, after, hpairs, rfl⟩ := hobject
        exact .object (forall_of_readMembers (fun _ _ _ hpart => ih hpart) hpairs)

theorem Readable.wellFormed {depth : Nat} {v : Value} (h : Readable depth v) :
    v.WellFormed := by
  induction h with
  | null => exact Value.wellFormed_null
  | bool b => exact Value.wellFormed_bool b
  | number h => exact h
  | string s => exact Value.wellFormed_string s
  | array _ ih => exact (Value.wellFormed_array_iff _).2 ih
  | object _ ih => exact Value.wellFormed_ofPairs ih

/-- What is read with a budget nests no deeper. -/
theorem Readable.nesting_le {depth : Nat} {v : Value} (h : Readable depth v) :
    v.nesting ≤ depth := by
  induction h with
  | null | bool _ | number _ | string _ => exact Nat.zero_le _
  | array _ ih => exact Value.nesting_array_le_iff.2 ⟨_, rfl, ih⟩
  | object _ ih =>
      refine Value.nesting_object_le_iff.2 ⟨_, rfl, fun member hmember => ?_⟩
      exact ih member (Entries.mem_of_mem_ofPairs member hmember)

theorem readable_of_document {text : List Char} {v : Value} (h : document text = .ok v) :
    Readable nestingLimit v := by
  obtain ⟨⟨w, rest⟩, hread, h⟩ := exists_of_bind_eq_ok h
  obtain ⟨-, -, h⟩ := exists_of_bind_eq_ok h
  cases h
  exact readable_of_readValue hread

end Json

end DocWeave
