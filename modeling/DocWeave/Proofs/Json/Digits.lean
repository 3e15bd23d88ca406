/-
Whole numbers in JSON text.  The decimal digits of a number of 64 bits, with its sign, are
read back as that number wherever nothing follows that would continue a number.
-/
import Mathlib
import DocWeave.Json.Reader
import DocWeave.Json.Writer
import DocWeave.Proofs.Text.Search

namespace DocWeave.Json

/-- What may stand behind a value: a separator, the end of a container, or a blank. -/
def Follows (rest : List Char) : Prop :=
  ∀ c ∈ rest.head?, c = ',' ∨ c = ']' ∨ c = '\x7d' ∨ isBlank c

/-- Nothing that follows a value continues a number. -/
theorem Follows.not_numeral {rest : List Char} (h : Follows rest) :
    ∀ c ∈ rest.head?, c.isDigit = false ∧ c ≠ '.' ∧ ¬ (c = 'e' ∨ c = 'E') := by
  intro c hc
  rcases h c hc with rfl | rfl | rfl | hblank
  · decide
  · decide
  · decide
  · simp only [isBlank, Bool.or_eq_true, decide_eq_true_eq] at hblank
    rcases hblank with ((rfl | rfl) | rfl) | rfl <;> decide

namespace Numeral

theorem le_ofDigitChars (n : Nat) (digits : List Char) :
    n ≤ Nat.ofDigitChars 10 digits n := by
  induction digits generalizing n with
  | nil => exact Nat.le_refl n
  | cons c rest ih =>
      rw [Nat.ofDigitChars_cons]
      have := ih (10 * n + (c.toNat - '0'.toNat))
      omega

/-- Digits that stay below the word limit are all taken. -/
theorem accumulate_eq {n : Nat} {digits : List Char}
    (h : Nat.ofDigitChars 10 digits n < wordLimit) :
    accumulate n digits = (Nat.ofDigitChars 10 digits n, digits.length) := by
  induction digits generalizing n with
  | nil => rfl
  | cons c rest ih =>
      rw [Nat.ofDigitChars_cons] at h ⊢
      have hnext := Nat.lt_of_le_of_lt (le_ofDigitChars _ rest) h
      rw [accumulate, if_pos hnext, ih h]
      rfl

theorem afterWhole_eq {n : Nat} {digits rest : List Char} (negative : Bool)
    (hvalue : Nat.ofDigitChars 10 digits 0 = n) (hn : n < wordLimit) (hrest : Follows rest) :
    afterWhole negative digits rest = .ok (whole? negative n, rest) := by
  have hkept : accumulate 0 digits = (n, digits.length) := by
    rw [accumulate_eq (hvalue ▸ hn), hvalue]
  unfold afterWhole
  cases rest with
  | nil => simp [hkept, finishWhole]
  | cons c after =>
      obtain ⟨-, hpoint, hmark⟩ := hrest.not_numeral c rfl
      simp [hkept, finishWhole, hpoint, hmark]

/-- Only zero starts with the digit zero. -/
theorem head?_toDigits_ne {n : Nat} (hn : 0 < n) : (Nat.toDigits 10 n).head? ≠ some '0' := by
  by_cases hsmall : n < 10
  · have hdigit : ∀ d < 10, 0 < d → Nat.digitChar d ≠ '0' := by decide
    rw [Nat.toDigits_of_lt_base hsmall]
    exact fun heq => hdigit n hsmall hn (Option.some.inj heq)
  · have hfront := head?_toDigits_ne (n := n / 10) (by omega)
    rw [Nat.toDigits_of_base_le (by decide) (Nat.le_of_not_lt hsmall), List.head?_append]
    cases hhead : (Nat.toDigits 10 (n / 10)).head? with
    | none => exact absurd (List.head?_eq_none_iff.1 hhead) Nat.toDigits_ne_nil
    | some c => rwa [hhead] at hfront
termination_by n

theorem exists_toDigits_eq_cons (n : Nat) :
    ∃ c more, Nat.toDigits 10 n = c :: more ∧ ∀ d ∈ c :: more, d.isDigit := by
  obtain ⟨c, more, hcons⟩ := List.exists_cons_of_ne_nil (Nat.toDigits_ne_nil (b := 10) (n := n))
  refine ⟨c, more, hcons, fun d hd => ?_⟩
  exact Nat.isDigit_of_mem_toDigits (b := 10) (n := n) (by decide) (by decide) (hcons ▸ hd)

/-- The digits of a number are read as the number. -/
theorem readDigits_toDigits {n : Nat} {rest : List Char} (negative : Bool) (hn : n < wordLimit)
    (hrest : Follows rest) :
    readDigits negative (Nat.toDigits 10 n ++ rest) = .ok (whole? negative n, rest) := by
  have hend : ∀ c ∈ rest.head?, c.isDigit = false := fun c hc => (hrest.not_numeral c hc).1
  have hwhole := afterWhole_eq negative (Nat.ofDigitChars_ten_toDigits (n := n)) hn hrest
  cases Nat.eq_zero_or_pos n with
  | inl hzero =>
      subst hzero
      change readDigits negative ('0' :: rest) = _
      cases rest with
      | nil => exact hwhole
      | cons d after =>
          rw [readDigits, if_pos rfl, hend d rfl, if_neg Bool.false_ne_true]
          exact hwhole
  | inr hpos =>
      have hhead := head?_toDigits_ne hpos
      obtain ⟨c, more, hcons, hdigits⟩ := exists_toDigits_eq_cons n
      rw [hcons] at hhead hwhole ⊢
      obtain ⟨hfirst, hmore⟩ := List.forall_mem_cons.1 hdigits
      obtain ⟨htake, hdrop⟩ := span_append hmore rest hend
      have hzero : c ≠ '0' := fun heq => hhead (congrArg some heq)
      rw [List.cons_append]
      unfold readDigits
      dsimp only
      rw [if_neg hzero, if_pos hfirst, htake, hdrop]
      exact hwhole

theorem toList_toString_ofNat (m : Nat) :
    (toString (Int.ofNat m)).toList = Nat.toDigits 10 m := by
  rw [Int.toString_eq_repr, Int.repr, Nat.toList_repr]

theorem toList_toString_negSucc (m : Nat) :
    (toString (Int.negSucc m)).toList = '-' :: Nat.toDigits 10 (m + 1) := by
  rw [Int.toString_eq_repr, Int.repr, String.toList_append, Nat.toList_repr]
  rfl

theorem whole?_of_pos {m : Nat} (hpos : 0 < m) (hle : m ≤ 2 ^ 63) :
    whole? true m = .whole (-m) := by
  rw [whole?, if_neg (by decide), if_pos ⟨hpos, hle⟩]

/-- A whole number of 64 bits is read from the text that it is shown as. -/
theorem read_numberText (n : Int64) {rest : List Char} (hrest : Follows rest) :
    read (numberText (.integer n) ++ rest) = .ok (.whole n.toInt, rest) := by
  have hleast := n.le_toInt
  have hgreatest := n.toInt_lt
  rw [numberText]
  cases hn : n.toInt with
  | ofNat m =>
      have hm : m < wordLimit := by
        rw [hn, Int.ofNat_eq_natCast] at hgreatest
        rw [wordLimit]
        omega
      have hread := readDigits_toDigits false hm hrest
      rw [toList_toString_ofNat]
      obtain ⟨c, more, hcons, hdigits⟩ := exists_toDigits_eq_cons m
      have hfirst := hdigits c List.mem_cons_self
      rw [hcons] at hread ⊢
      rw [List.cons_append, read]
      · exact hread
      · intro other heq
        rw [(List.cons.inj heq).1] at hfirst
        exact absurd hfirst (by decide)
  | negSucc m =>
      -- behind a minus sign the digits may say one more than without
      have hm : m + 1 ≤ 2 ^ 63 := by
        rw [hn, Int.negSucc_eq] at hleast
        omega
      have hread := readDigits_toDigits (n := m + 1) true
        (by rw [wordLimit]; omega) hrest
      rw [toList_toString_negSucc, List.cons_append, read, hread,
        whole?_of_pos (Nat.succ_pos m) hm]
      rfl

end Numeral

/-- A whole number starts with its sign or with a digit. -/
theorem exists_numberText_eq_cons (n : Int64) :
    ∃ c more, numberText (.integer n) = c :: more ∧ (c = '-' ∨ c.isDigit) := by
  rw [numberText]
  cases n.toInt with
  | ofNat m =>
      rw [Numeral.toList_toString_ofNat]
      obtain ⟨c, more, hcons, hdigits⟩ := Numeral.exists_toDigits_eq_cons m
      exact ⟨c, more, hcons, Or.inr (hdigits c List.mem_cons_self)⟩
  | negSucc m => exact ⟨'-', _, Numeral.toList_toString_negSucc m, Or.inl rfl⟩

/-- A whole number is read as the number of the document. -/
theorem readNumber_numberText (n : Int64) {rest : List Char} (hrest : Follows rest) :
    ∃ hlt, readNumber (numberText (.integer n) ++ rest) =
      .ok (.number (.integer n), ⟨rest, hlt⟩) := by
  have hread := Numeral.read_numberText n hrest
  refine ⟨Numeral.length_read_lt hread, ?_⟩
  have hnumber : (Numeral.whole n.toInt).toNumber? = some (.integer n) := by
    have hleast := n.minValue_le_toInt
    have hgreatest := n.toInt_le
    rw [Numeral.toNumber?, Number.ofInt?, if_pos ⟨hleast, hgreatest⟩, Int64.ofInt_toInt]
    rfl
  unfold readNumber
  split
  next fault hfault =>
    rw [hread] at hfault
    cases hfault
  next numeral after hok =>
    rw [hread] at hok
    cases hok
    rw [hnumber]

end DocWeave.Json
