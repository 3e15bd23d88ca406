/-
Reading decimal numbers.  A text is read exactly when it is a spelling of a number, and what
is read is the one number that it spells.
-/
import Mathlib
import DocWeave.Proofs.Decimal.Spelling
import DocWeave.Proofs.Text.Search

namespace DocWeave.Decimal

/-! ### Whole numbers -/

theorem readInteger?_eq_some_iff (text : List Char) (n : Int) :
    readInteger? text = some n ↔ Signed n text := by
  constructor
  · intro h
    obtain ⟨sign, hsign, htext⟩ := exists_isSign_takeSign text
    rcases htake : takeSign text with ⟨negative, digits⟩
    simp only [htake] at hsign htext
    simp only [readInteger?, htake] at h
    split at h
    next => cases h
    next hread =>
      obtain rfl := Option.some.inj h
      rw [htext]
      exact .intro hsign ((isDigits_iff digits).2 (Bool.eq_false_iff.2 hread))
  · rintro @⟨negative, sign, digits, hsign, hdigits⟩
    simp only [readInteger?, hdigits.takeSign_append hsign, (isDigits_iff digits).1 hdigits]
    rfl

theorem readExponent?_eq_some_iff (text : List Char) (n : Int) :
    readExponent? text = some n ↔ Exponent n text := by
  constructor
  · intro h
    cases text with
    | nil =>
        obtain rfl := Option.some.inj h
        exact .none
    | cons mark rest =>
        rw [readExponent?] at h
        obtain ⟨hmark, hread⟩ := Option.ite_none_right_eq_some.1 h
        simp only [Bool.or_eq_true, decide_eq_true_eq] at hmark
        exact .marked hmark ((readInteger?_eq_some_iff rest n).1 hread)
  · intro h
    cases h with
    | none => rfl
    | marked hmark hsigned =>
        rw [readExponent?, if_pos (by simpa using hmark)]
        exact (readInteger?_eq_some_iff _ n).2 hsigned

/-! ### Literals -/

/-- Behind the digits of a literal stands no digit and no point. -/
theorem Exponent.not_digit {n : Int} {tail : List Char} (h : Exponent n tail) :
    ∀ c ∈ tail.head?, c.isDigit = false ∧ c ≠ '.' := by
  intro c hc
  cases h with
  | none => cases hc
  | marked hmark _ =>
      cases hc
      rcases hmark with rfl | rfl <;> decide

/-- The digits behind a point, if there is one, and what follows them. -/
def takeFraction : List Char → List Char × List Char
  | '.' :: rest => (rest.takeWhile Char.isDigit, rest.dropWhile Char.isDigit)
  | rest => ([], rest)

theorem takeFraction_of_not_point {tail : List Char} (h : ∀ c ∈ tail.head?, c ≠ '.') :
    takeFraction tail = ([], tail) := by
  unfold takeFraction
  split
  · exact absurd rfl (h _ rfl)
  · rfl

theorem takeFraction_point {fraction tail : List Char} (hfraction : ∀ c ∈ fraction, c.isDigit)
    (htail : ∀ c ∈ tail.head?, c.isDigit = false) :
    takeFraction ('.' :: (fraction ++ tail)) = (fraction, tail) := by
  obtain ⟨htake, hdrop⟩ := span_append hfraction tail htail
  rw [takeFraction, htake, hdrop]

/-- What is taken for a fraction is one, and there is none without a point. -/
theorem takeFraction_cases (behind : List Char) :
    (∀ c ∈ (takeFraction behind).1, c.isDigit) ∧
      (behind = '.' :: ((takeFraction behind).1 ++ (takeFraction behind).2) ∨
        (takeFraction behind).1 = [] ∧ behind = (takeFraction behind).2) := by
  unfold takeFraction
  split
  next rest =>
    refine ⟨fun c hc => List.mem_takeWhile_imp hc, Or.inl ?_⟩
    rw [List.takeWhile_append_dropWhile]
  · exact ⟨by simp, Or.inr ⟨rfl, rfl⟩⟩

/-- A literal is read part by part. -/
theorem Literal.read?_eq {text body whole fraction tail : List Char} {negative : Bool}
    (hsign : takeSign text = (negative, body)) (hwhole : body.takeWhile Char.isDigit = whole)
    (hfraction : takeFraction (body.dropWhile Char.isDigit) = (fraction, tail)) :
    Literal.read? text =
      if whole.isEmpty && fraction.isEmpty then none
      else (readExponent? tail).map fun exponent =>
        ⟨negative, natOfDigits (whole ++ fraction), exponent - fraction.length⟩ := by
  have hread : Literal.read? text =
      let whole := (takeSign text).2.takeWhile Char.isDigit
      let found := takeFraction ((takeSign text).2.dropWhile Char.isDigit)
      if whole.isEmpty && found.1.isEmpty then none
      else (readExponent? found.2).map fun exponent =>
        ⟨(takeSign text).1, natOfDigits (whole ++ found.1), exponent - found.1.length⟩ := rfl
  rw [hread, hsign]
  simp only [hwhole, hfraction]

section Mantissa

variable {whole fraction mantissa : List Char}

theorem Mantissa.not_isEmpty (h : Mantissa whole fraction mantissa) :
    (whole.isEmpty && fraction.isEmpty) = false := by
  cases h with
  | plain hwhole => simp [hwhole.1]
  | pointed hwhole _ => simp [hwhole.1]
  | bare hfraction => simp [hfraction.1]

theorem Mantissa.not_sign (h : Mantissa whole fraction mantissa) (tail : List Char) :
    ∀ c ∈ (mantissa ++ tail).head?, c ≠ '-' ∧ c ≠ '+' := by
  intro c hc
  cases h with
  | plain hwhole =>
      obtain ⟨first, rest, rfl⟩ := List.exists_cons_of_ne_nil hwhole.1
      exact not_sign_of_isDigit (hwhole.isDigit_head c hc)
  | pointed hwhole _ =>
      obtain ⟨first, rest, rfl⟩ := List.exists_cons_of_ne_nil hwhole.1
      exact not_sign_of_isDigit (hwhole.isDigit_head c hc)
  | bare _ =>
      cases hc
      decide

/-- The digits of a literal are found again in front of what is no digit and no point. -/
theorem Mantissa.found (h : Mantissa whole fraction mantissa) {tail : List Char}
    (htail : ∀ c ∈ tail.head?, c.isDigit = false ∧ c ≠ '.') :
    (mantissa ++ tail).takeWhile Char.isDigit = whole ∧
      takeFraction ((mantissa ++ tail).dropWhile Char.isDigit) = (fraction, tail) := by
  have hdigit : ∀ c ∈ tail.head?, c.isDigit = false := fun c hc => (htail c hc).1
  have hpoint : ∀ rest : List Char, ∀ c ∈ ('.' :: rest).head?, c.isDigit = false := by
    intro rest c hc
    cases hc
    rfl
  cases h with
  | plain hwhole =>
      obtain ⟨hfront, hbehind⟩ := span_append hwhole.2 tail hdigit
      rw [hbehind]
      exact ⟨hfront, takeFraction_of_not_point fun c hc => (htail c hc).2⟩
  | pointed hwhole hfraction =>
      obtain ⟨hfront, hbehind⟩ := span_append hwhole.2 ('.' :: (fraction ++ tail)) (hpoint _)
      rw [List.append_assoc, List.cons_append, hbehind]
      exact ⟨hfront, takeFraction_point hfraction hdigit⟩
  | bare hfraction => exact ⟨rfl, takeFraction_point hfraction.2 hdigit⟩

theorem exists_mantissa {body tail : List Char} (hwhole : body.takeWhile Char.isDigit = whole)
    (hfraction : takeFraction (body.dropWhile Char.isDigit) = (fraction, tail))
    (hne : (whole.isEmpty && fraction.isEmpty) = false) :
    ∃ mantissa, Mantissa whole fraction mantissa ∧ body = mantissa ++ tail := by
  have hdigits : ∀ c ∈ whole, c.isDigit := fun c hc =>
    List.mem_takeWhile_imp (hwhole ▸ hc)
  have hbody : body = whole ++ body.dropWhile Char.isDigit := by
    rw [← hwhole, List.takeWhile_append_dropWhile]
  have hcases := takeFraction_cases (body.dropWhile Char.isDigit)
  rw [hfraction] at hcases
  obtain ⟨hfractionDigits, hpoint | ⟨hnone, hplain⟩⟩ := hcases
  · rw [hpoint] at hbody
    by_cases hempty : whole = []
    · subst hempty
      have hsome : fraction ≠ [] := by simpa using hne
      exact ⟨_, .bare ⟨hsome, hfractionDigits⟩, hbody⟩
    · exact ⟨_, .pointed ⟨hempty, hdigits⟩ hfractionDigits, by simpa using hbody⟩
  · subst hnone
    have hsome : whole ≠ [] := by simpa using hne
    rw [hplain] at hbody
    exact ⟨_, .plain ⟨hsome, hdigits⟩, hbody⟩

end Mantissa

/-- A whole number is a literal without a point and without an exponent. -/
theorem Signed.exists_spelled {n : Int} {text : List Char} (h : Signed n text) :
    ∃ l, Literal.Spelled l text := by
  cases h with
  | intro hsign hdigits =>
      have hspelled := Literal.Spelled.intro hsign (.plain hdigits) .none
      rw [List.append_nil] at hspelled
      exact ⟨_, hspelled⟩

/-- A text is read as a literal exactly if it is a spelling of it. -/
theorem Literal.read?_eq_some_iff (text : List Char) (l : Literal) :
    Literal.read? text = some l ↔ Spelled l text := by
  constructor
  · intro h
    obtain ⟨sign, hsign, htext⟩ := exists_isSign_takeSign text
    rcases htake : takeSign text with ⟨negative, body⟩
    rcases hfraction : takeFraction (body.dropWhile Char.isDigit) with ⟨fraction, tail⟩
    rw [Literal.read?_eq htake rfl hfraction] at h
    obtain ⟨hne, hread⟩ := Option.ite_none_left_eq_some.1 h
    obtain ⟨exponent, hexponent, rfl⟩ := Option.map_eq_some_iff.1 hread
    obtain ⟨mantissa, hmantissa, hbody⟩ :=
      exists_mantissa rfl hfraction (Bool.eq_false_iff.2 hne)
    simp only [htake] at hsign htext
    have hspelled := Spelled.intro hsign hmantissa
      ((readExponent?_eq_some_iff tail exponent).1 hexponent)
    rwa [← hbody, ← htext] at hspelled
  · rintro @⟨negative, sign, whole, fraction, mantissa, tail, exponent, hsign, hmantissa, htail⟩
    have hread := (readExponent?_eq_some_iff tail exponent).2 htail
    have htake := takeSign_append hsign (hmantissa.not_sign tail)
    obtain ⟨hwhole, hfraction⟩ := hmantissa.found htail.not_digit
    rw [Literal.read?_eq htake hwhole hfraction, hmantissa.not_isEmpty, hread]
    rfl

end DocWeave.Decimal
