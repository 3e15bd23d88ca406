/-
Numbers in scalar text.  A text is a whole number, a double or no number at all, and which of
them is decided by its spelling and by the size of the number that it spells.
-/
import DocWeave.Proofs.Decimal.Finite
import DocWeave.Proofs.Decimal.Reading
import DocWeave.Proofs.Text.Trim
import DocWeave.Value.Number

namespace DocWeave.Number

open Decimal (IsSign Literal Signed infinityBound)

/-- A word for infinity or for what is no number, in letters of either case, behind a sign of
either kind or none. -/
inductive NotFinite : List Char → Prop
  | intro {negative : Bool} {sign word : List Char} (hsign : IsSign negative sign)
      (hword : word.map Char.toLower ∈ ["inf".toList, "infinity".toList, "nan".toList]) :
      NotFinite (sign ++ word)

variable {text : List Char}

/-! ### Whole numbers and doubles -/

theorem ofInt?_eq_some_iff (i : Int) (n : Number) :
    ofInt? i = some n ↔ ∃ k : Int64, k.toInt = i ∧ n = .integer k := by
  rw [ofInt?, Option.ite_none_right_eq_some]
  constructor
  · rintro ⟨⟨hlow, hhigh⟩, h⟩
    have hlt : i < 2 ^ 63 := lt_of_le_of_lt hhigh (by decide)
    exact ⟨Int64.ofInt i, Int64.toInt_ofInt_of_le hlow hlt, (Option.some.inj h).symm⟩
  · rintro ⟨k, rfl, rfl⟩
    exact ⟨⟨k.minValue_le_toInt, k.toInt_le⟩, by rw [Int64.ofInt_toInt]⟩

theorem ofFloat?_eq_some_iff (x : Float) (n : Number) :
    ofFloat? x = some n ↔ x.isFinite ∧ n = .float x := by
  rw [ofFloat?, Option.ite_none_right_eq_some, Option.some.injEq]
  exact and_congr_right fun _ => eq_comm

/-- The text is a whole number of 64 bits. -/
theorem readInteger?_bind_ofInt?_eq_some_iff (n : Number) :
    (Decimal.readInteger? text).bind ofInt? = some n ↔
      ∃ k : Int64, Signed k.toInt text ∧ n = .integer k := by
  simp only [Option.bind_eq_some_iff, Decimal.readInteger?_eq_some_iff, ofInt?_eq_some_iff]
  constructor
  · rintro ⟨_, hsigned, k, rfl, rfl⟩
    exact ⟨k, hsigned, rfl⟩
  · rintro ⟨k, hsigned, rfl⟩
    exact ⟨_, hsigned, k, rfl, rfl⟩

theorem readInteger?_bind_ofInt?_eq_none_iff :
    (Decimal.readInteger? text).bind ofInt? = none ↔ ∀ k : Int64, ¬ Signed k.toInt text := by
  simp only [Option.eq_none_iff_forall_ne_some, Ne, readInteger?_bind_ofInt?_eq_some_iff]
  exact ⟨fun h k hsigned => h _ ⟨k, hsigned, rfl⟩, fun h _ ⟨k, hsigned, _⟩ => h k hsigned⟩

/-- The text is a literal that is a finite double. -/
theorem read?_bind_ofFloat?_eq_some_iff (n : Number) :
    ((Literal.read? text).bind fun l => ofFloat? l.toFloat) = some n ↔
      ∃ l, Literal.Spelled l text ∧ l.magnitude < infinityBound ∧ n = .float l.toFloat := by
  simp only [Option.bind_eq_some_iff, Literal.read?_eq_some_iff, ofFloat?_eq_some_iff,
    Decimal.isFinite_toFloat_iff]

/-! ### Scalar text -/

theorem read?_eq_some_integer_iff (k : Int64) :
    read? text = some (.integer k) ↔ Signed k.toInt text := by
  rw [read?]
  split
  next n hwhole =>
    rw [← hwhole, readInteger?_bind_ofInt?_eq_some_iff]
    constructor
    · rintro ⟨k', hsigned, heq⟩
      cases heq
      exact hsigned
    · exact fun hsigned => ⟨k, hsigned, rfl⟩
  next hnone =>
    rw [read?_bind_ofFloat?_eq_some_iff]
    exact iff_of_false (fun ⟨_, _, _, heq⟩ => nomatch heq)
      (readInteger?_bind_ofInt?_eq_none_iff.1 hnone k)

theorem read?_eq_some_float_iff (x : Float) :
    read? text = some (.float x) ↔
      (∀ k : Int64, ¬ Signed k.toInt text) ∧
        ∃ l, Literal.Spelled l text ∧ l.magnitude < infinityBound ∧ l.toFloat = x := by
  rw [read?]
  split
  next n hwhole =>
    obtain ⟨k, hsigned, rfl⟩ := (readInteger?_bind_ofInt?_eq_some_iff n).1 hwhole
    exact iff_of_false (fun heq => nomatch heq) fun hnone => hnone.1 k hsigned
  next hnone =>
    rw [read?_bind_ofFloat?_eq_some_iff,
      and_iff_right (readInteger?_bind_ofInt?_eq_none_iff.1 hnone)]
    simp only [float.injEq, eq_comm]

theorem read?_eq_none_iff :
    read? text = none ↔
      (∀ k : Int64, ¬ Signed k.toInt text) ∧
        ∀ l, Literal.Spelled l text → infinityBound ≤ l.magnitude := by
  constructor
  · intro hnone
    have hwhole : ∀ k : Int64, ¬ Signed k.toInt text := by
      intro k hsigned
      rw [(read?_eq_some_integer_iff k).2 hsigned] at hnone
      cases hnone
    refine ⟨hwhole, fun l hspelled => not_lt.1 fun hlt => ?_⟩
    rw [(read?_eq_some_float_iff l.toFloat).2 ⟨hwhole, l, hspelled, hlt, rfl⟩] at hnone
    cases hnone
  · rintro ⟨hwhole, hlarge⟩
    rw [Option.eq_none_iff_forall_ne_some]
    rintro (k | x) hread
    · exact hwhole k ((read?_eq_some_integer_iff k).1 hread)
    · obtain ⟨-, l, hspelled, hlt, -⟩ := (read?_eq_some_float_iff x).1 hread
      exact (hlarge l hspelled).not_gt hlt

/-! ### Words -/

/-- The words start with a letter. -/
theorem toLower_of_mem_words {c : Char} {rest : List Char}
    (h : (c :: rest).map Char.toLower ∈ ["inf".toList, "infinity".toList, "nan".toList]) :
    c.toLower = 'i' ∨ c.toLower = 'n' := by
  rw [List.map_cons] at h
  simp only [List.mem_cons, List.not_mem_nil, or_false] at h
  rcases h with h | h | h
  · exact Or.inl (List.cons.inj h).1
  · exact Or.inl (List.cons.inj h).1
  · exact Or.inr (List.cons.inj h).1

/-- No literal starts with a letter. -/
theorem NotFinite.not_spelled (h : NotFinite text) (l : Literal) :
    ¬ Literal.Spelled l text := by
  rw [← Literal.read?_eq_some_iff]
  obtain @⟨negative, sign, word, hsign, hword⟩ := h
  cases word with
  | nil => exact absurd hword (by decide)
  | cons c rest =>
      have hlower := toLower_of_mem_words hword
      have hdigit : c.isDigit = false := by
        refine Bool.eq_false_iff.2 fun hdigit => ?_
        rw [toLower_of_isDigit hdigit] at hlower
        rcases hlower with rfl | rfl <;> exact absurd hdigit (by decide)
      have hne : c ≠ '.' ∧ c ≠ '-' ∧ c ≠ '+' := by
        refine ⟨?_, ?_, ?_⟩ <;> rintro rfl <;> exact absurd hlower (by decide)
      have htake : Decimal.takeSign (sign ++ c :: rest) = (negative, c :: rest) :=
        Decimal.takeSign_append hsign fun d hd => Option.some.inj hd ▸ hne.2
      have hwhole : (c :: rest).takeWhile Char.isDigit = [] := by simp [hdigit]
      have hfraction : Decimal.takeFraction ((c :: rest).dropWhile Char.isDigit) =
          ([], c :: rest) := by
        rw [List.dropWhile_cons_of_neg (by simp [hdigit])]
        exact Decimal.takeFraction_of_not_point fun d hd => Option.some.inj hd ▸ hne.1
      rw [Literal.read?_eq htake hwhole hfraction]
      exact fun hread => nomatch hread

/-- A text is a whole number exactly if it is spelled as one and fits in 64 bits, and a double
exactly if it is no such number but a literal that does not round to infinity.  Every other
text is no number, and so are the words for infinity and for what is no number. -/
theorem read?_eq_iff (text : List Char) :
    (∀ k : Int64, read? text = some (.integer k) ↔ Signed k.toInt text) ∧
      (∀ x : Float, read? text = some (.float x) ↔
        (∀ k : Int64, ¬ Signed k.toInt text) ∧
          ∃ l, Literal.Spelled l text ∧ l.magnitude < infinityBound ∧ l.toFloat = x) ∧
      (read? text = none ↔
        (∀ k : Int64, ¬ Signed k.toInt text) ∧
          ∀ l, Literal.Spelled l text → infinityBound ≤ l.magnitude) ∧
      (NotFinite text → read? text = none) := by
  refine ⟨read?_eq_some_integer_iff, read?_eq_some_float_iff, read?_eq_none_iff, fun h => ?_⟩
  refine read?_eq_none_iff.2 ⟨fun k hsigned => ?_, fun l hspelled => ?_⟩
  · obtain ⟨l, hspelled⟩ := hsigned.exists_spelled
    exact h.not_spelled l hspelled
  · exact absurd hspelled (h.not_spelled l)

/-- A plus sign in front of a whole number, a literal that is too large, and a word. -/
theorem read?_of_sign_and_size_and_word :
    read? "+07".toList = some (.integer 7) ∧ read? "-.1E+401".toList = none ∧
      NotFinite "-Infinity".toList ∧ read? "-Infinity".toList = none := by
  have hplus : Signed 7 "+07".toList := @Signed.intro _ _ ['0', '7'] .plus (by decide)
  have hlarge : Literal.read? "-.1E+401".toList = some ⟨true, 1, 400⟩ := rfl
  have hword : NotFinite "-Infinity".toList :=
    @NotFinite.intro _ _ "Infinity".toList .minus (by decide)
  refine ⟨((read?_eq_iff _).1 7).2 hplus, (read?_eq_iff _).2.2.1.2 ⟨?_, ?_⟩, hword,
    (read?_eq_iff _).2.2.2 hword⟩
  · intro k hsigned
    cases (Decimal.readInteger?_eq_some_iff _ _).2 hsigned
  · intro l hspelled
    obtain rfl := Option.some.inj (hlarge.symm.trans ((Literal.read?_eq_some_iff _ l).2 hspelled))
    exact (Decimal.infinityBound_lt_mul_ten_zpow one_ne_zero le_rfl).le

end DocWeave.Number
