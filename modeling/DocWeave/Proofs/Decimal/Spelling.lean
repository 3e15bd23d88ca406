/-
The spellings of numbers in decimal.  A text and a number are related when the text is one of
the ways of writing the number down: zeros in front are free, and zero may have a sign.
Without zeros in front every whole number has one spelling, and zero has a second one with a
sign.
-/
import DocWeave.Decimal.Literal

namespace DocWeave.Decimal

/-! ### Whole numbers -/

def IsDigits (text : List Char) : Prop :=
  text ≠ [] ∧ ∀ c ∈ text, c.isDigit

theorem isDigits_iff (text : List Char) :
    IsDigits text ↔ (text.isEmpty || !text.all Char.isDigit) = false := by
  simp [IsDigits]

-- all characters would be tried if the second half of the definition were decided as it stands
instance : DecidablePred IsDigits :=
  fun text => decidable_of_iff _ (isDigits_iff text).symm

/-- A whole number of any size: digits, and a minus sign in front of them or nothing. -/
inductive Whole : Int → List Char → Prop
  | plain {digits : List Char} (h : IsDigits digits) : Whole (natOfDigits digits) digits
  | minus {digits : List Char} (h : IsDigits digits) :
      Whole (-(natOfDigits digits)) ('-' :: digits)

inductive IsSign : Bool → List Char → Prop
  | none : IsSign false []
  | plus : IsSign false ['+']
  | minus : IsSign true ['-']

inductive Signed : Int → List Char → Prop
  | intro {negative : Bool} {sign digits : List Char} (hsign : IsSign negative sign)
      (hdigits : IsDigits digits) :
      Signed (if negative then -(natOfDigits digits) else natOfDigits digits) (sign ++ digits)

/-! ### Literals -/

/-- Digits with a point among them, in front of them or behind them, or without one. -/
inductive Mantissa : List Char → List Char → List Char → Prop
  | plain {whole : List Char} (hwhole : IsDigits whole) : Mantissa whole [] whole
  | pointed {whole fraction : List Char} (hwhole : IsDigits whole)
      (hfraction : ∀ c ∈ fraction, c.isDigit) :
      Mantissa whole fraction (whole ++ '.' :: fraction)
  | bare {fraction : List Char} (hfraction : IsDigits fraction) :
      Mantissa [] fraction ('.' :: fraction)

inductive Exponent : Int → List Char → Prop
  | none : Exponent 0 []
  | marked {n : Int} {mark : Char} {text : List Char} (hmark : mark = 'e' ∨ mark = 'E')
      (h : Signed n text) : Exponent n (mark :: text)

/-- The parts of a literal one behind the other, and the exact value that they denote. -/
inductive Literal.Spelled : Literal → List Char → Prop
  | intro {negative : Bool} {sign whole fraction mantissa tail : List Char} {exponent : Int}
      (hsign : IsSign negative sign) (hmantissa : Mantissa whole fraction mantissa)
      (hexponent : Exponent exponent tail) :
      Spelled ⟨negative, natOfDigits (whole ++ fraction), exponent - fraction.length⟩
        (sign ++ (mantissa ++ tail))

/-! ### Signs -/

theorem IsDigits.isDigit_head {digits : List Char} (h : IsDigits digits) :
    ∀ c ∈ digits.head?, c.isDigit :=
  fun c hc => h.2 c (List.mem_of_head? hc)

theorem not_sign_of_isDigit {c : Char} (h : c.isDigit) : c ≠ '-' ∧ c ≠ '+' := by
  constructor <;> rintro rfl <;> exact absurd h (by decide)

theorem takeSign_append {negative : Bool} {sign body : List Char} (hsign : IsSign negative sign)
    (hbody : ∀ c ∈ body.head?, c ≠ '-' ∧ c ≠ '+') :
    takeSign (sign ++ body) = (negative, body) := by
  cases hsign with
  | plus => rfl
  | minus => rfl
  | none =>
      rw [List.nil_append]
      unfold takeSign
      split
      · exact absurd rfl (hbody _ rfl).1
      · exact absurd rfl (hbody _ rfl).2
      · rfl

/-- What is taken for a sign is one. -/
theorem exists_isSign_takeSign (text : List Char) :
    ∃ sign, IsSign (takeSign text).1 sign ∧ text = sign ++ (takeSign text).2 := by
  unfold takeSign
  split
  · exact ⟨_, .minus, rfl⟩
  · exact ⟨_, .plus, rfl⟩
  · exact ⟨_, .none, rfl⟩

theorem IsDigits.takeSign_append {negative : Bool} {sign digits : List Char}
    (h : IsDigits digits) (hsign : IsSign negative sign) :
    takeSign (sign ++ digits) = (negative, digits) :=
  Decimal.takeSign_append hsign fun c hc => not_sign_of_isDigit (h.isDigit_head c hc)

/-! ### Zeros in front -/

/-- Whether a zero stands in front of another digit, behind the sign or without one. -/
def hasLeadingZero (text : List Char) : Bool :=
  match (takeSign text).2 with
  | '0' :: _ :: _ => true
  | _ => false

theorem hasLeadingZero_minus {digits : List Char} (h : IsDigits digits) :
    hasLeadingZero ('-' :: digits) = hasLeadingZero digits := by
  have hplain := h.takeSign_append .none
  rw [List.nil_append] at hplain
  rw [hasLeadingZero, hasLeadingZero, hplain, takeSign]

/-! ### Digits of a number -/

/-- The number that a single digit denotes. -/
theorem exists_lt_ten_of_isDigit {c : Char} (h : c.isDigit) :
    ∃ n < 10, c.toNat = '0'.toNat + n := by
  obtain ⟨hlow, hhigh⟩ := Char.isDigit_iff_toNat.1 h
  have hnine : '9'.toNat = '0'.toNat + 9 := rfl
  exact ⟨c.toNat - '0'.toNat, by omega, by omega⟩

theorem digitChar_of_isDigit {c : Char} (h : c.isDigit) :
    Nat.digitChar (c.toNat - '0'.toNat) = c := by
  obtain ⟨n, hn, hc⟩ := exists_lt_ten_of_isDigit h
  apply Char.toNat_inj.1
  rw [hc, Nat.add_sub_cancel_left, Nat.toNat_digitChar_of_lt_ten hn]
  rfl

theorem toDigits_of_isDigit {c : Char} (h : c.isDigit) :
    Nat.toDigits 10 (c.toNat - '0'.toNat) = [c] := by
  obtain ⟨n, hn, hc⟩ := exists_lt_ten_of_isDigit h
  rw [Nat.toDigits_of_lt_base (by omega), digitChar_of_isDigit h]

/-- Digits that are appended to a positive number are its last digits. -/
theorem toDigits_ofDigitChars {n : Nat} (hn : 0 < n) {digits : List Char}
    (h : ∀ c ∈ digits, c.isDigit) :
    Nat.toDigits 10 (Nat.ofDigitChars 10 digits n) = Nat.toDigits 10 n ++ digits := by
  induction digits generalizing n with
  | nil => rw [Nat.ofDigitChars_nil, List.append_nil]
  | cons c rest ih =>
      obtain ⟨hc, hrest⟩ := List.forall_mem_cons.1 h
      obtain ⟨m, hm, hvalue⟩ := exists_lt_ten_of_isDigit hc
      rw [Nat.ofDigitChars_cons, ih (by omega) hrest,
        ← Nat.toDigits_append_toDigits (by decide) hn (by omega), toDigits_of_isDigit hc,
        List.append_assoc, List.singleton_append]

/-- Digits without a zero in front are the digits of the number that they denote. -/
theorem toDigits_natOfDigits {digits : List Char} (h : IsDigits digits)
    (hzero : hasLeadingZero digits = false) : Nat.toDigits 10 (natOfDigits digits) = digits := by
  obtain ⟨hne, hdigits⟩ := h
  obtain ⟨c, rest, rfl⟩ := List.exists_cons_of_ne_nil hne
  obtain ⟨hc, hrest⟩ := List.forall_mem_cons.1 hdigits
  rw [natOfDigits, Nat.ofDigitChars_cons, Nat.mul_zero, Nat.zero_add]
  cases rest with
  | nil => exact toDigits_of_isDigit hc
  | cons d more =>
      have hpos : 0 < c.toNat - '0'.toNat := by
        refine Nat.pos_of_ne_zero fun heq => ?_
        have hdigit := digitChar_of_isDigit hc
        rw [heq] at hdigit
        rw [← hdigit] at hzero
        cases hzero
      rw [toDigits_ofDigitChars hpos hrest, toDigits_of_isDigit hc, List.singleton_append]

end DocWeave.Decimal
