/-
Quoted text.  Whatever characters a text has, reading it undoes writing it: each character
is written in a form that is read back as it, and no form is taken for the closing
quotation mark.
-/
import DocWeave.Json.Quoted
import DocWeave.Proofs.Text.Repeat

namespace DocWeave.Json.Quoted

/-! ### Escapes -/

/-- The escapes of a letter: what stands for it, and the letter behind the backslash. -/
theorem character_of_letter? {letter char : Char} (h : letter? letter = some char)
    (rest : List Char) :
    ∃ hlt, character ('\\' :: letter :: rest) = .ok (.more char, ⟨rest, hlt⟩) := by
  refine ⟨length_lt_cons_cons '\\' letter rest, ?_⟩
  simp [character, unescape, h, Except.map, Remainder.within]

theorem hexDigits_of_control : ∀ n < 0x20,
    hexDigits 4 n = ['0', '0', Nat.digitChar (n / 16), Nat.digitChar (n % 16)] ∧
      natOfHex? ['0', '0', Nat.digitChar (n / 16), Nat.digitChar (n % 16)] = some n := by
  decide

/-- A control character is written as its code unit, which is half of no pair. -/
theorem unicodeEscape_of_control {c : Char} (h : c.toNat < 0x20) (rest : List Char) :
    ∃ hlt, unicodeEscape (hexDigits 4 c.toNat ++ rest) = .ok (c, ⟨rest, hlt⟩) := by
  obtain ⟨hdigits, hvalue⟩ := hexDigits_of_control c.toNat h
  have hlow : isLowSurrogate c.toNat = false := by
    simp [isLowSurrogate]
    omega
  have hhigh : isHighSurrogate c.toNat = false := by
    simp [isHighSurrogate]
    omega
  rw [hdigits]
  refine ⟨by simp; omega, ?_⟩
  change unicodeEscape ('0' :: '0' :: Nat.digitChar (c.toNat / 16) ::
    Nat.digitChar (c.toNat % 16) :: rest) = _
  simp only [unicodeEscape, codeUnit, hvalue, bind, Except.bind, hlow, hhigh, Char.ofNat_toNat]
  rfl

theorem character_of_control {c : Char} (h : c.toNat < 0x20) (rest : List Char) :
    ∃ hlt, character ('\\' :: 'u' :: (hexDigits 4 c.toNat ++ rest)) =
      .ok (.more c, ⟨rest, hlt⟩) := by
  obtain ⟨hlt, hread⟩ := unicodeEscape_of_control h rest
  refine ⟨length_lt_cons_of_lt '\\' (length_lt_cons_of_lt 'u' hlt), ?_⟩
  simp [character, unescape, letter?, hread, bind, Except.bind, Except.map, Remainder.within,
    pure, Except.pure]

theorem character_of_plain {c : Char} (hquote : c ≠ '"') (hbackslash : c ≠ '\\')
    (hcontrol : ¬ c.toNat < 0x20) (rest : List Char) :
    ∃ hlt, character (c :: rest) = .ok (.more c, ⟨rest, hlt⟩) :=
  ⟨length_lt_cons c rest, by
    rw [character, if_neg hquote, if_neg hbackslash, if_neg hcontrol]⟩

/-- The forms of a character: the letter of an escape, a code unit, or the character. -/
theorem escape_eq (c : Char) :
    (∃ letter, letter? letter = some c ∧ escape c = ['\\', letter]) ∨
      (c.toNat < 0x20 ∧ escape c = '\\' :: 'u' :: hexDigits 4 c.toNat) ∨
      (c ≠ '"' ∧ c ≠ '\\' ∧ ¬ c.toNat < 0x20 ∧ escape c = [c]) := by
  unfold escape
  split
  next hquote => exact Or.inl ⟨'"', by rw [hquote]; rfl, rfl⟩
  next hquote =>
  split
  next hbackslash => exact Or.inl ⟨'\\', by rw [hbackslash]; rfl, rfl⟩
  next hbackslash =>
  split
  next hfeed => exact Or.inl ⟨'n', by rw [hfeed]; rfl, rfl⟩
  split
  next hreturn => exact Or.inl ⟨'r', by rw [hreturn]; rfl, rfl⟩
  split
  next htab => exact Or.inl ⟨'t', by rw [htab]; rfl, rfl⟩
  split
  next hback => exact Or.inl ⟨'b', by rw [hback]; rfl, rfl⟩
  split
  next hform => exact Or.inl ⟨'f', by rw [hform]; rfl, rfl⟩
  split
  next hcontrol => exact Or.inr (Or.inl ⟨hcontrol, rfl⟩)
  next hcontrol => exact Or.inr (Or.inr ⟨hquote, hbackslash, hcontrol, rfl⟩)

/-- The form in which a character is written is read back as the character. -/
theorem character_escape (c : Char) (rest : List Char) :
    ∃ hlt, character (escape c ++ rest) = .ok (.more c, ⟨rest, hlt⟩) := by
  rcases escape_eq c with ⟨letter, hletter, heq⟩ | ⟨hcontrol, heq⟩ |
    ⟨hquote, hbackslash, hcontrol, heq⟩
  · rw [heq]
    exact character_of_letter? hletter rest
  · rw [heq]
    exact character_of_control hcontrol rest
  · rw [heq]
    exact character_of_plain hquote hbackslash hcontrol rest

/-! ### Texts -/

/-- A text is read back from its escapes, up to the quotation mark that closes it. -/
theorem decode_flatMap_escape (text rest : List Char) :
    ∃ hlt, decode (text.flatMap escape ++ '"' :: rest) = .ok (text, ⟨rest, hlt⟩) := by
  have hloop : ∃ hlt, readToLast List.length character (text.flatMap escape ++ '"' :: rest) =
      .ok ((text, ()), ⟨rest, hlt⟩) := by
    induction text with
    | nil =>
        have hclose : character ('"' :: rest) = .ok (.last (), ⟨rest, length_lt_cons '"' rest⟩) :=
          rfl
        exact ⟨_, readToLast_of_last hclose⟩
    | cons c text ih =>
        obtain ⟨hlt, hrest⟩ := ih
        obtain ⟨hlt', hfirst⟩ := character_escape c (text.flatMap escape ++ '"' :: rest)
        rw [List.flatMap_cons, List.append_assoc]
        exact ⟨_, readToLast_of_more hfirst hrest⟩
  obtain ⟨hlt, hread⟩ := hloop
  refine ⟨hlt, ?_⟩
  rw [decode, hread]
  rfl

end DocWeave.Json.Quoted
