/-
Which texts can be decoded, and what they give.  A text is decoded exactly when each of its
ampersands starts a reference, where a plus sign may stand before the digits of a number.  So
the sign is the only thing by which decoding accepts more than the references there are.
-/
import DocWeave.Proofs.Xml.Reference

namespace DocWeave.Xml

/-- The references by number with a plus sign before the digits, without their ampersand and
semicolon. -/
inductive SignedReference : Char → List Char → Prop
  | decimal {c : Char} {digits : List Char} (hne : digits ≠ [])
      (hdigits : ∀ d ∈ digits, d.isDigit) (hcode : Decimal.natOfDigits digits = c.toNat) :
      SignedReference c ('#' :: '+' :: digits)
  | hexadecimal {c x : Char} {digits : List Char} (hx : x = 'x' ∨ x = 'X') (hne : digits ≠ [])
      (hcode : natOfHex? digits = some c.toNat) : SignedReference c ('#' :: x :: '+' :: digits)

/-- The references that decoding accepts. -/
def Accepted (c : Char) (name : List Char) : Prop :=
  Reference c name ∨ SignedReference c name

/-- A text in which every ampersand starts a reference of some kind, and the text with each
reference replaced by its character. -/
inductive Decoded (IsReference : Char → List Char → Prop) : List Char → List Char → Prop
  | nil : Decoded IsReference [] []
  | plain {c : Char} {text result : List Char} (hc : c ≠ '&')
      (h : Decoded IsReference text result) : Decoded IsReference (c :: text) (c :: result)
  | reference {c : Char} {name text result : List Char} (hname : IsReference c name)
      (h : Decoded IsReference text result) :
      Decoded IsReference ('&' :: (name ++ ';' :: text)) (c :: result)

/-- A text without a plus sign where the digits of a reference should begin. -/
def IsUnsigned (text : List Char) : Prop :=
  ∀ mark ∈ ["&#+", "&#x+", "&#X+"], ¬ mark.toList <:+: text

instance : DecidablePred IsUnsigned :=
  fun _ => inferInstanceAs (Decidable (∀ mark ∈ _, _))

/-! ### References by number -/

theorem charOfCode?_eq_some_iff {n : Nat} {c : Char} :
    charOfCode? n = some c ↔ n = c.toNat := by
  constructor
  · intro h
    rw [charOfCode?] at h
    split at h
    next hvalid =>
      obtain rfl := Option.some.inj h
      rw [Char.toNat_ofNat, if_pos hvalid]
    next => cases h
  · rintro rfl
    exact charOfCode?_toNat c

theorem numbered_eq_ok_iff {name : List Char} {code : Option Nat} {c : Char} :
    numbered name code = .ok c ↔ code = some c.toNat := by
  constructor
  · intro h
    rw [numbered] at h
    split at h
    next found hfound =>
      obtain rfl := Except.ok.inj h
      obtain ⟨n, hcode, hchar⟩ := Option.bind_eq_some_iff.1 hfound
      rw [hcode, charOfCode?_eq_some_iff.1 hchar]
    next => cases h
  · exact numbered_of_code

/-- Digits are taken as they are or behind a plus sign. -/
theorem unsignedDigits?_eq_some {text digits : List Char}
    (h : unsignedDigits? text = some digits) :
    digits ≠ [] ∧ (text = digits ∨ text = '+' :: digits) := by
  unfold unsignedDigits? at h
  split at h
  next rest =>
    obtain ⟨hne, hrest⟩ := Option.ite_none_left_eq_some.1 h
    obtain rfl := Option.some.inj hrest
    exact ⟨mt List.isEmpty_iff.2 hne, .inr rfl⟩
  next =>
    obtain ⟨hne, htext⟩ := Option.ite_none_left_eq_some.1 h
    obtain rfl := Option.some.inj htext
    exact ⟨mt List.isEmpty_iff.2 hne, .inl rfl⟩

theorem unsignedDigits?_plus {digits : List Char} (h : digits ≠ []) :
    unsignedDigits? ('+' :: digits) = some digits :=
  if_neg (mt List.isEmpty_iff.1 h)

theorem accepted_decimal {text : List Char} {c : Char} (h : decimalCode? text = some c.toNat) :
    Accepted c ('#' :: text) := by
  obtain ⟨digits, hdigits, hcode⟩ := Option.bind_eq_some_iff.1 h
  obtain ⟨hne, htext⟩ := unsignedDigits?_eq_some hdigits
  split at hcode
  next hall =>
    have hall := List.all_eq_true.1 hall
    rcases htext with rfl | rfl
    · exact .inl (.decimal hne hall (Option.some.inj hcode))
    · exact .inr (.decimal hne hall (Option.some.inj hcode))
  next => cases hcode

theorem accepted_hexadecimal {text : List Char} {c x : Char} (hx : x = 'x' ∨ x = 'X')
    (h : hexCode? text = some c.toNat) : Accepted c ('#' :: x :: text) := by
  obtain ⟨digits, hdigits, hcode⟩ := Option.bind_eq_some_iff.1 h
  obtain ⟨hne, rfl | rfl⟩ := unsignedDigits?_eq_some hdigits
  · exact .inl (.hexadecimal hx hne hcode)
  · exact .inr (.hexadecimal hx hne hcode)

/-! ### References -/

theorem accepted_of_referenced {name : List Char} {c : Char} (h : referenced name = .ok c) :
    Accepted c name := by
  unfold referenced at h
  split at h
  next hname => exact hname ▸ Except.ok.inj h ▸ .inl .lt
  split at h
  next hname => exact hname ▸ Except.ok.inj h ▸ .inl .gt
  split at h
  next hname => exact hname ▸ Except.ok.inj h ▸ .inl .amp
  split at h
  next hname => exact hname ▸ Except.ok.inj h ▸ .inl .quot
  split at h
  next hname => exact hname ▸ Except.ok.inj h ▸ .inl .apos
  split at h
  next => exact accepted_hexadecimal (.inl rfl) (numbered_eq_ok_iff.1 h)
  next => exact accepted_hexadecimal (.inr rfl) (numbered_eq_ok_iff.1 h)
  next => exact accepted_decimal (numbered_eq_ok_iff.1 h)
  next => cases h

theorem SignedReference.referenced_eq {c : Char} {name : List Char}
    (h : SignedReference c name) : referenced name = .ok c := by
  cases h with
  | @decimal digits hne hdigits hcode =>
      have hcode : decimalCode? ('+' :: digits) = some c.toNat := by
        rw [decimalCode?, unsignedDigits?_plus hne, Option.bind_some,
          if_pos (List.all_eq_true.2 hdigits), hcode]
      exact numbered_of_code hcode
  | @hexadecimal _ digits hx hne hcode =>
      have hcode : hexCode? ('+' :: digits) = some c.toNat := by
        rw [hexCode?, unsignedDigits?_plus hne, Option.bind_some, hcode]
      rcases hx with rfl | rfl
      · exact numbered_of_code hcode
      · exact numbered_of_code hcode

/-- A reference is read as a character exactly when it is accepted as one of that character. -/
theorem referenced_eq_ok_iff {name : List Char} {c : Char} :
    referenced name = .ok c ↔ Accepted c name := by
  constructor
  · exact accepted_of_referenced
  · rintro (h | h)
    · exact h.referenced_eq
    · exact h.referenced_eq

theorem SignedReference.semicolon_not_mem {c : Char} {name : List Char}
    (h : SignedReference c name) : ';' ∉ name := by
  cases h with
  | @decimal digits _ hdigits _ =>
      have hnot : ';' ∉ digits := fun hmem => absurd (hdigits ';' hmem) (by decide)
      simpa using hnot
  | @hexadecimal _ digits hx _ hcode =>
      have hnot : ';' ∉ digits := fun hmem =>
        absurd (isAlphanum_of_foldlM_hexValue? hcode ';' hmem) (by decide)
      rcases hx with rfl | rfl
      · simpa using hnot
      · simpa using hnot

theorem Accepted.semicolon_not_mem {c : Char} {name : List Char} (h : Accepted c name) :
    ';' ∉ name := by
  rcases h with h | h
  · intro hmem
    simpa [isReferenceChar] using h.isReferenceChar ';' hmem
  · exact h.semicolon_not_mem

/-! ### Texts -/

theorem Accepted.character_eq {c : Char} {name : List Char} (h : Accepted c name)
    (rest : List Char) :
    ∃ hlt, character '&' (name ++ ';' :: rest) = .ok (c, ⟨rest, hlt⟩) := by
  have hbreak := breakOn_singleton_append h.semicolon_not_mem rest
  rw [character, if_pos rfl]
  split
  next hnone =>
    rw [hbreak] at hnone
    cases hnone
  next found after hfound =>
    rw [hbreak] at hfound
    obtain ⟨rfl, rfl⟩ := Prod.mk.inj (Option.some.inj hfound)
    rw [referenced_eq_ok_iff.2 h]
    exact ⟨length_lt_cons_of_le '&' (length_breakOn_le hbreak), rfl⟩

/-- A character stands for itself, or a reference that is accepted stands for it. -/
theorem eq_of_character {c found : Char} {rest : List Char} {after : Remainder (c :: rest)}
    (h : character c rest = .ok (found, after)) :
    (c ≠ '&' ∧ found = c ∧ after.1 = rest) ∨
      (c = '&' ∧ ∃ name, Accepted found name ∧ rest = name ++ ';' :: after.1) := by
  rw [character] at h
  split at h
  next hc =>
    split at h
    next => cases h
    next name behind hbreak =>
      obtain ⟨char, hchar, heq⟩ := exists_of_map_eq_ok h
      obtain ⟨rfl, rfl⟩ := Prod.mk.inj heq
      refine .inr ⟨hc, name, accepted_of_referenced hchar, ?_⟩
      simpa using eq_append_of_breakOn hbreak
  next hc =>
    obtain ⟨rfl, rfl⟩ := Prod.mk.inj (Except.ok.inj h)
    exact .inl ⟨hc, rfl, rfl⟩

theorem decoded_of_decode {text result : List Char} (h : decode text = .ok result) :
    Decoded Accepted text result := by
  match text with
  | [] =>
      rw [decode, readToEnd_nil] at h
      obtain rfl := Except.ok.inj h
      exact .nil
  | c :: rest =>
      rw [decode] at h
      obtain ⟨found, after, others, hfirst, hothers, rfl⟩ := exists_of_readToEnd_cons h
      have hrest := decoded_of_decode hothers
      rcases eq_of_character hfirst with ⟨hc, rfl, hafter⟩ | ⟨rfl, name, hname, htext⟩
      · rw [hafter] at hrest
        exact .plain hc hrest
      · rw [htext]
        exact .reference hname hrest
termination_by text.length
decreasing_by exact after.2

theorem Decoded.decode_eq {text result : List Char} (h : Decoded Accepted text result) :
    decode text = .ok result := by
  rw [decode]
  induction h with
  | nil => exact readToEnd_nil character
  | @plain c text result hc _ ih =>
      rw [readToEnd_of_ok (character_of_ne hc text), ih]
      rfl
  | @reference c name text result hname _ ih =>
      obtain ⟨hlt, hchar⟩ := hname.character_eq text
      rw [readToEnd_of_ok hchar, ih]
      rfl

/-- Decoding succeeds exactly when every ampersand starts a reference that is accepted, and
gives the text with the references replaced. -/
theorem decode_eq_ok_iff (text result : List Char) :
    decode text = .ok result ↔ Decoded Accepted text result :=
  ⟨decoded_of_decode, Decoded.decode_eq⟩

theorem Decoded.append {IsReference : Char → List Char → Prop}
    {text result text' result' : List Char} (h : Decoded IsReference text result)
    (h' : Decoded IsReference text' result') :
    Decoded IsReference (text ++ text') (result ++ result') := by
  induction h with
  | nil => exact h'
  | plain hc _ ih => exact .plain hc ih
  | reference hname _ ih =>
      rw [List.cons_append, List.append_assoc]
      exact .reference hname ih

theorem decode_append {text result text' result' : List Char} (h : decode text = .ok result)
    (h' : decode text' = .ok result') : decode (text ++ text') = .ok (result ++ result') :=
  ((decoded_of_decode h).append (decoded_of_decode h')).decode_eq

/-! ### Texts without signs -/

theorem IsUnsigned.of_append {first second : List Char} (h : IsUnsigned (first ++ second)) :
    IsUnsigned second := by
  intro mark hmark hoccurs
  exact h mark hmark (hoccurs.trans (List.suffix_append first second).isInfix)

theorem IsUnsigned.reference {c : Char} {name text : List Char}
    (h : IsUnsigned ('&' :: (name ++ text))) (hname : Accepted c name) : Reference c name := by
  rcases hname with hname | ⟨-, -, -⟩ | ⟨hx, -, -⟩
  · exact hname
  · exact absurd ⟨[], _, rfl⟩ (h "&#+" (by simp))
  · rcases hx with rfl | rfl
    · exact absurd ⟨[], _, rfl⟩ (h "&#x+" (by simp))
    · exact absurd ⟨[], _, rfl⟩ (h "&#X+" (by simp))

theorem IsUnsigned.decoded_iff {text : List Char} (h : IsUnsigned text) (result : List Char) :
    Decoded Accepted text result ↔ Decoded Reference text result := by
  constructor
  · intro hdecoded
    induction hdecoded with
    | nil => exact .nil
    | @plain c text result hc _ ih => exact .plain hc (ih (@IsUnsigned.of_append [c] _ h))
    | @reference c name text result hname _ ih =>
        have hrest : IsUnsigned (('&' :: name ++ [';']) ++ text) := by simpa using h
        exact .reference (h.reference hname) (ih hrest.of_append)
  · intro hdecoded
    clear h
    induction hdecoded with
    | nil => exact .nil
    | plain hc _ ih => exact .plain hc ih
    | reference hname _ ih => exact .reference (.inl hname) ih

/-- Where no sign stands before the digits of a reference, decoding succeeds exactly when every
ampersand starts a reference, and gives the text with each reference replaced by its character,
from left to right and once. -/
theorem decode_eq_ok_iff_of_isUnsigned {text : List Char} (h : IsUnsigned text)
    (result : List Char) : decode text = .ok result ↔ Decoded Reference text result :=
  (decode_eq_ok_iff text result).trans (h.decoded_iff result)

/-- Predefined references and a number, and an ampersand that starts nothing again; and half of
a surrogate pair, which is no character. -/
theorem decode_eq_ok_iff_of_isUnsigned_of_all_kinds :
    (IsUnsigned "+&lt;&#066;&amp;lt;".toList ∧
      Decoded Reference "+&lt;&#066;&amp;lt;".toList "+<B&lt;".toList) ∧
    IsUnsigned "&#xD800;".toList ∧ ∀ result, ¬ Decoded Reference "&#xD800;".toList result := by
  have htext : IsUnsigned "+&lt;&#066;&amp;lt;".toList := by decide
  have hdecode : decode "+&lt;&#066;&amp;lt;".toList = .ok "+<B&lt;".toList := by cbv
  have hhalf : IsUnsigned "&#xD800;".toList := by decide
  have herror : decode "&#xD800;".toList = .error (.invalidReference "#xD800") := by cbv
  refine ⟨⟨htext, (decode_eq_ok_iff_of_isUnsigned htext _).1 hdecode⟩, hhalf, ?_⟩
  intro result hdecoded
  cases herror.symm.trans ((decode_eq_ok_iff_of_isUnsigned hhalf result).2 hdecoded)

/-- A number with a sign is decoded, though no ampersand of the text starts a reference. -/
theorem decode_of_signed_number :
    decode "&#+65;".toList = .ok ['A'] ∧ ∀ result, ¬ Decoded Reference "&#+65;".toList result := by
  refine ⟨by cbv, fun result h => ?_⟩
  generalize htext : "&#+65;".toList = text at h
  cases h with
  | nil => cases htext
  | plain hc _ => exact hc (List.cons.inj htext).1.symm
  | @reference c name rest _ hname _ =>
      have hsplit : name ++ ';' :: rest = "#+65".toList ++ [';'] := (List.cons.inj htext).2.symm
      have hbreak := breakOn_singleton_append (Accepted.semicolon_not_mem (.inl hname)) rest
      rw [hsplit, breakOn_singleton_append (by decide)] at hbreak
      obtain ⟨rfl, -⟩ := Prod.mk.inj (Option.some.inj hbreak)
      exact absurd (hname.isReferenceChar '+' (by decide)) (by decide)

end DocWeave.Xml
