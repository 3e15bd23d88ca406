/-
Indices of any size.  The whole number between the brackets of a path may have any number of
digits, while the index of a step has 64 bits.  The item that is selected is the one that the
number itself counts to, and no sum or conversion on the way to it leaves the 64 bits.
-/
import DocWeave.Proofs.Decimal.Spelling
import DocWeave.Proofs.Path.Address

namespace DocWeave

/-- What a whole number counts to in a list, from the end when it is negative: one item, or
nothing. -/
def countedTo (items : List Value) (n : Int) : List Value :=
  if h : 0 ≤ n ∧ n < items.length then [items[n.toNat]]
  else if h : -items.length ≤ n ∧ n < 0 then [items[(items.length + n).toNat]]
  else []

/-- The index nearest to a number counts to the same item.  Where the two differ, both are
beyond the same end of the list. -/
theorem toList_itemAt?_of_isNearest {items : List Value} (hfits : items.length < 2 ^ 63)
    {i : Int64} {n : Int} (hi : Path.IsNearest i n) :
    (itemAt? items i).toList = countedTo items n := by
  have hi : i.toInt = max (-2 ^ 63) (min (2 ^ 63 - 1) n) := hi
  have hposition : (Value.array items).position i =
      if i.toInt < 0 then items.length + i.toInt else i.toInt := rfl
  rw [itemAt?_eq (show (Value.array items).FitsIndex from hfits), countedTo]
  by_cases hfront : 0 ≤ n ∧ n < items.length
  · have hsame : (Value.array items).position i = n := by
      rw [hposition, if_neg (by omega)]
      omega
    rw [dif_pos hfront, hsame, if_pos hfront.1, List.getElem?_eq_getElem (by omega)]
    rfl
  · rw [dif_neg hfront]
    by_cases hback : -items.length ≤ n ∧ n < 0
    · have hsame : (Value.array items).position i = items.length + n := by
        rw [hposition, if_pos (by omega)]
        omega
      rw [dif_pos hback, hsame, if_pos (by omega), List.getElem?_eq_getElem (by omega)]
      rfl
    · have hbeyond : (Value.array items).position i < 0 ∨
          items.length ≤ (Value.array items).position i := by
        rw [hposition]
        split <;> omega
      rw [dif_neg hback]
      rcases hbeyond with hbefore | hbehind
      · rw [if_neg (by omega)]
        rfl
      · rw [if_pos (by omega), List.getElem?_eq_none (by omega)]
        rfl

namespace Path

theorem Bracketed.of_whole {n : Int} {literal : List Char} (h : Decimal.Whole n literal) :
    Bracketed (.index (clampIndex n)) literal := by
  cases h with
  | plain h => exact .index h.1 h.2 (isNearest_clampIndex _)
  | minus h => exact .negative h.1 h.2 (isNearest_clampIndex _)

def indexText (literal : List Char) : String :=
  String.ofList ('$' :: '[' :: (literal ++ [']']))

theorem parse_indexText {n : Int} {literal : List Char} (h : Decimal.Whole n literal) :
    parse (indexText literal) = .ok [.index (clampIndex n)] := by
  have hsegments := Segments.cons (Bracketed.of_whole h).segment .nil
  rw [List.append_nil] at hsegments
  rw [parse_eq_ok_iff, indexText, String.toList_ofList]
  exact .root hsegments

/-- A whole number between brackets selects the item that it counts to, however many digits it
has.  The index that it is read as is the nearest one of 64 bits.  The length of the list is
also a number of 64 bits, its sum with a negative index is another, and the position becomes a
natural number without a change unless it is negative. -/
theorem evaluate_indexText {n : Int} {literal : List Char} (hliteral : Decimal.Whole n literal)
    {items : List Value} (hfits : items.length < 2 ^ 63) :
    evaluate (indexText literal) (.array items) = .ok (countedTo items n) ∧
      ∃ i : Int64, parse (indexText literal) = .ok [.index i] ∧ IsNearest i n ∧
        (Int64.ofNat items.length).toInt = items.length ∧
        (i < 0 → (Int64.ofNat items.length + i).toInt = items.length + i.toInt) ∧
        let position := if i < 0 then Int64.ofNat items.length + i else i
        0 ≤ position → (position.toNatClampNeg : Int) = position.toInt := by
  have hparse := parse_indexText hliteral
  have hnear := isNearest_clampIndex n
  refine ⟨?_, clampIndex n, hparse, hnear, Int64.toInt_ofNat_of_lt hfits, ?_, ?_⟩
  · have hselect : select [.index (clampIndex n)] (.array items) =
        (itemAt? items (clampIndex n)).toList := List.flatMap_singleton _ _
    rw [evaluate_of_parse hparse, hselect, toList_itemAt?_of_isNearest hfits hnear]
  · intro hneg
    rw [Int64.lt_iff_toInt_lt, Int64.toInt_zero] at hneg
    exact toInt_ofNat_add hfits hneg
  · intro position hposition
    rw [Int64.le_iff_toInt_le, Int64.toInt_zero] at hposition
    rw [← Int64.toNat_toInt, Int.toNat_of_nonneg hposition]

/-- Minus zero, zeros in front of a position from the end, and one more than fits in 64 bits. -/
theorem evaluate_indexText_of_any_size :
    let items : List Value := [.bool true, .bool false, .null]
    items.length < 2 ^ 63 ∧
      (Decimal.Whole (-0) "-0".toList ∧
        evaluate "$[-0]" (.array items) = .ok [.bool true]) ∧
      (Decimal.Whole (-2) "-002".toList ∧
        evaluate "$[-002]" (.array items) = .ok [.bool false]) ∧
      Decimal.Whole (-9223372036854775809) "-9223372036854775809".toList ∧
        evaluate "$[-9223372036854775809]" (.array items) = .ok [] := by
  intro items
  have hfits : items.length < 2 ^ 63 := by decide
  have hzero : Decimal.Whole (-0) "-0".toList := @Decimal.Whole.minus "0".toList (by decide)
  have hback : Decimal.Whole (-2) "-002".toList := @Decimal.Whole.minus "002".toList (by decide)
  have hbeyond : Decimal.Whole (-9223372036854775809) "-9223372036854775809".toList :=
    @Decimal.Whole.minus "9223372036854775809".toList (by decide)
  exact ⟨hfits, ⟨hzero, (evaluate_indexText hzero hfits).1⟩,
    ⟨hback, (evaluate_indexText hback hfits).1⟩, hbeyond, (evaluate_indexText hbeyond hfits).1⟩

end Path

end DocWeave
