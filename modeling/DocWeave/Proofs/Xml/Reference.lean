/-
Reading references back: what stands between an ampersand and a semicolon names one
character, and escaped text gives the text that was escaped.
-/
import Mathlib
import DocWeave.Proofs.Text.Repeat
import DocWeave.Proofs.Text.Search
import DocWeave.Proofs.Xml.Written

namespace DocWeave.Xml

/-! ### The characters of a reference -/

def isReferenceChar (c : Char) : Bool :=
  c.isAlphanum || c = '#'

theorem isAlphanum_of_isDigit {c : Char} (h : c.isDigit) : c.isAlphanum := by
  simp [Char.isAlphanum, h]

theorem isAlphanum_of_hexValue? {c : Char} {n : Nat} (h : hexValue? c = some n) :
    c.isAlphanum := by
  simp only [hexValue?] at h
  split at h
  next hdigit => exact isAlphanum_of_isDigit hdigit
  split at h
  next hlower =>
    have hhigh : c.val ≤ 'z'.val := UInt32.le_trans hlower.2 (by decide)
    have hletter : c.isLower = true := by simpa [Char.isLower] using ⟨hlower.1, hhigh⟩
    simp [Char.isAlphanum, Char.isAlpha, hletter]
  split at h
  next hupper =>
    have hhigh : c.val ≤ 'Z'.val := UInt32.le_trans hupper.2 (by decide)
    have hletter : c.isUpper = true := by simpa [Char.isUpper] using ⟨hupper.1, hhigh⟩
    simp [Char.isAlphanum, Char.isAlpha, hletter]
  · cases h

theorem isAlphanum_of_foldlM_hexValue? {digits : List Char} {first n : Nat}
    (h : digits.foldlM (fun n c => (hexValue? c).map (16 * n + ·)) first = some n) :
    ∀ d ∈ digits, d.isAlphanum := by
  induction digits generalizing first with
  | nil => simp
  | cons d rest ih =>
      rw [List.foldlM_cons] at h
      obtain ⟨next, hnext, hrest⟩ := Option.bind_eq_some_iff.1 h
      obtain ⟨v, hv, _⟩ := Option.map_eq_some_iff.1 hnext
      exact List.forall_mem_cons.2 ⟨isAlphanum_of_hexValue? hv, ih hrest⟩

theorem Reference.isReferenceChar {c : Char} {name : List Char} (h : Reference c name) :
    ∀ d ∈ name, isReferenceChar d := by
  have of_isAlphanum {d : Char} (hd : d.isAlphanum) : Xml.isReferenceChar d := by
    simp [Xml.isReferenceChar, hd]
  cases h with
  | decimal _ hdigits _ =>
      refine List.forall_mem_cons.2 ⟨rfl, fun d hd => ?_⟩
      exact of_isAlphanum (isAlphanum_of_isDigit (hdigits d hd))
  | hexadecimal hx _ hcode =>
      refine List.forall_mem_cons.2 ⟨rfl, List.forall_mem_cons.2 ⟨?_, fun d hd => ?_⟩⟩
      · rcases hx with rfl | rfl <;> rfl
      · exact of_isAlphanum (isAlphanum_of_foldlM_hexValue? hcode d hd)
  | _ => exact List.all_eq_true.1 rfl

/-- A character that is in no reference is in no escaped text, unless it stands there
for itself. -/
theorem Escaped.not_mem {stop : Char} {s w : List Char} (h : Escaped stop s w)
    (hstop : isReferenceChar stop = false) (hamp : stop ≠ '&') (hsemicolon : stop ≠ ';') :
    stop ∉ w := by
  induction h with
  | nil => simp
  | plain hc _ _ ih => simp [Ne.symm hc, ih]
  | reference hname _ ih =>
      have hname : stop ∉ _ := fun hmem => by
        simpa [hstop] using hname.isReferenceChar stop hmem
      simp [hamp, hsemicolon, hname, ih]

/-! ### Reading references -/

theorem charOfCode?_toNat (c : Char) : charOfCode? c.toNat = some c := by
  have hvalid : c.toNat.isValidChar := c.valid
  rw [charOfCode?, if_pos hvalid, Char.ofNat_toNat]

theorem unsignedDigits?_of_isAlphanum {digits : List Char} (hne : digits ≠ [])
    (h : ∀ d ∈ digits, d.isAlphanum) : unsignedDigits? digits = some digits := by
  cases digits with
  | nil => exact absurd rfl hne
  | cons d rest =>
      have hplus : d ≠ '+' := by
        rintro rfl
        exact absurd (h '+' List.mem_cons_self) (by decide)
      simp [unsignedDigits?, hplus]

theorem numbered_of_code {name : List Char} {code : Option Nat} {c : Char}
    (h : code = some c.toNat) : numbered name code = .ok c := by
  rw [numbered, h, Option.bind_some, charOfCode?_toNat]

/-- A reference is read as the character it is one of. -/
theorem Reference.referenced_eq {c : Char} {name : List Char} (h : Reference c name) :
    referenced name = .ok c := by
  cases h with
  | @decimal _ digits hne hdigits hcode =>
      have hcode : decimalCode? digits = some c.toNat := by
        rw [decimalCode?, unsignedDigits?_of_isAlphanum hne fun d hd =>
          isAlphanum_of_isDigit (hdigits d hd), Option.bind_some,
          if_pos (List.all_eq_true.2 hdigits), hcode]
      obtain ⟨d, rest, rfl⟩ := List.exists_cons_of_ne_nil hne
      have hdigit := hdigits d List.mem_cons_self
      have hx : d ≠ 'x' := by
        rintro rfl
        exact absurd hdigit (by decide)
      have hX : d ≠ 'X' := by
        rintro rfl
        exact absurd hdigit (by decide)
      simp [referenced, hx, hX, numbered_of_code hcode]
  | @hexadecimal _ x digits hx hne hcode =>
      have hcode : hexCode? digits = some c.toNat := by
        rw [hexCode?, unsignedDigits?_of_isAlphanum hne
          (isAlphanum_of_foldlM_hexValue? hcode), Option.bind_some, hcode]
      rcases hx with rfl | rfl <;> simp [referenced, numbered_of_code hcode]
  | _ => rfl

theorem character_of_ne {c : Char} (h : c ≠ '&') (rest : List Char) :
    character c rest = .ok (c, ⟨rest, length_lt_cons c rest⟩) := by
  rw [character, if_neg h]

theorem Reference.character_eq {c : Char} {name : List Char} (h : Reference c name)
    (rest : List Char) :
    ∃ hlt, character '&' (name ++ ';' :: rest) = .ok (c, ⟨rest, hlt⟩) := by
  have hsemicolon : ';' ∉ name := fun hmem => by
    simpa [Xml.isReferenceChar] using h.isReferenceChar ';' hmem
  have hbreak := breakOn_singleton_append hsemicolon rest
  rw [character, if_pos rfl]
  split
  next hnone =>
    rw [hbreak] at hnone
    cases hnone
  next found after hfound =>
    rw [hbreak] at hfound
    cases hfound
    rw [h.referenced_eq]
    exact ⟨length_lt_cons_of_le '&' (length_breakOn_le hbreak), rfl⟩

/-- Escaped text is read as the text that was escaped. -/
theorem Escaped.decode_eq {stop : Char} {s w : List Char} (h : Escaped stop s w) :
    decode w = .ok s := by
  rw [decode]
  induction h with
  | nil => exact readToEnd_nil character
  | @plain c s w _ hamp _ ih =>
      rw [readToEnd_of_ok (character_of_ne hamp w), ih]
      rfl
  | @reference c name s w hname _ ih =>
      obtain ⟨hlt, hchar⟩ := hname.character_eq w
      rw [List.cons_append, readToEnd_of_ok hchar, ih]
      rfl

end DocWeave.Xml
