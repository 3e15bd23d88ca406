/-
Byte positions in a text.  A text can be cut at a position exactly when a character begins
there or the text ends there; a position in any other place is not one of the text.
-/
import DocWeave.Proofs.Text.Search

namespace DocWeave

/-- The two sides of a byte position, if the text is long enough and no character lies across
the position. -/
def splitAtByte? : Nat → List Char → Option (List Char × List Char)
  | 0, text => some ([], text)
  | _ + 1, [] => none
  | n + 1, c :: text =>
      if c.utf8Size ≤ n + 1 then
        (splitAtByte? (n + 1 - c.utf8Size) text).map fun found => (c :: found.1, found.2)
      else none

/-- The byte at which a pattern first occurs. -/
def findByte? (pattern text : List Char) : Option Nat :=
  (breakOn pattern text).map fun found => utf8Length found.1

/-- The byte at which the last character in front of a rest begins. -/
def lastByte (text rest : List Char) : Nat :=
  utf8Length (text.take (text.length - rest.length)).dropLast

theorem utf8Length_pos_of_ne_nil {text : List Char} (h : text ≠ []) : 0 < utf8Length text := by
  obtain ⟨c, rest, rfl⟩ := List.exists_cons_of_ne_nil h
  rw [utf8Length_cons]
  exact Nat.add_pos_left c.utf8Size_pos _

theorem utf8Length_lt_append_iff (front rest : List Char) :
    utf8Length front < utf8Length (front ++ rest) ↔ rest ≠ [] := by
  rw [utf8Length_append]
  constructor
  · rintro h rfl
    exact Nat.lt_irrefl _ h
  · intro hne
    exact Nat.lt_add_of_pos_right (utf8Length_pos_of_ne_nil hne)

theorem splitAtByte?_append (front rest : List Char) :
    splitAtByte? (utf8Length front) (front ++ rest) = some (front, rest) := by
  induction front with
  | nil => rw [utf8Length_nil, List.nil_append, splitAtByte?]
  | cons c front ih =>
      obtain ⟨n, hn⟩ : ∃ n, utf8Length (c :: front) = n + 1 :=
        Nat.exists_eq_add_one.2 (utf8Length_pos_of_ne_nil (List.cons_ne_nil c front))
      have hsize : n + 1 - c.utf8Size = utf8Length front := by
        rw [← hn, utf8Length_cons, Nat.add_sub_cancel_left]
      have hle : c.utf8Size ≤ n + 1 := by
        rw [← hn, utf8Length_cons]
        exact Nat.le_add_right _ _
      rw [hn, List.cons_append, splitAtByte?, if_pos hle, hsize, ih]
      rfl

theorem eq_append_of_splitAtByte? {n : Nat} {text front rest : List Char}
    (h : splitAtByte? n text = some (front, rest)) :
    text = front ++ rest ∧ n = utf8Length front := by
  induction text generalizing n front with
  | nil =>
      cases n with
      | zero =>
          cases h
          exact ⟨rfl, rfl⟩
      | succ n => cases h
  | cons c text ih =>
      cases n with
      | zero =>
          cases h
          exact ⟨rfl, rfl⟩
      | succ n =>
          rw [splitAtByte?] at h
          split at h
          next hle =>
            obtain ⟨⟨inner, behind⟩, hsplit, heq⟩ := Option.map_eq_some_iff.1 h
            cases heq
            obtain ⟨rfl, hn⟩ := ih hsplit
            exact ⟨rfl, by rw [utf8Length_cons, ← hn, Nat.add_sub_cancel' hle]⟩
          next => cases h

theorem lastByte_append (front : List Char) (c : Char) (rest : List Char) :
    lastByte (front ++ c :: rest) rest = utf8Length front := by
  have hlength : (front ++ c :: rest).length - rest.length = (front ++ [c]).length := by
    simp only [List.length_append, List.length_cons, List.length_nil]
    omega
  have htake : (front ++ c :: rest).take (front ++ [c]).length = front ++ [c] := by
    rw [List.append_cons front c rest, List.take_left]
  rw [lastByte, hlength, htake, List.dropLast_concat]

/-! ### Positions of a string -/

theorem utf8ByteSize_ofList (text : List Char) :
    (String.ofList text).utf8ByteSize = utf8Length text := by
  induction text with
  | nil => rfl
  | cons c text ih =>
      have hsplit : String.ofList (c :: text) = String.singleton c ++ String.ofList text := by
        rw [String.singleton_eq_ofList, ← String.ofList_append, List.singleton_append]
      rw [hsplit, String.utf8ByteSize_append, String.utf8ByteSize_singleton, ih, utf8Length_cons]

/-- The positions of a string are those at which its characters can be cut. -/
theorem isValid_iff (text : List Char) (pos : Nat) :
    String.Pos.Raw.IsValid (String.ofList text) ⟨pos⟩ ↔
      ∃ front rest, text = front ++ rest ∧ pos = utf8Length front := by
  rw [String.Pos.Raw.isValid_iff_exists_append]
  constructor
  · rintro ⟨first, second, htext, hpos⟩
    refine ⟨first.toList, second.toList, ?_, ?_⟩
    · rw [← String.toList_append, ← htext, String.toList_ofList]
    · rw [← utf8ByteSize_ofList, String.ofList_toList]
      exact congrArg String.Pos.Raw.byteIdx hpos
  · rintro ⟨front, rest, rfl, rfl⟩
    refine ⟨String.ofList front, String.ofList rest, String.ofList_append, ?_⟩
    rw [String.rawEndPos, utf8ByteSize_ofList]

end DocWeave
