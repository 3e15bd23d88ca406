/-
Texts as bytes.  The first byte of every character tells how many bytes go on with it, so that
a byte which goes on with a character can stand neither first in a text nor behind a character
of a single byte.
-/
import DocWeave.Text.Utf8

namespace DocWeave.Utf8

/-- How many bytes follow a first byte is known from the range that it is in. -/
theorem map_more_lead?_ofNat {n : Nat} (h : n < 256) :
    (lead? (UInt8.ofNat n)).map Lead.more =
      if n < 0x80 then some 0
      else if n < 0xC2 then none
      else if n < 0xE0 then some 1
      else if n < 0xF0 then some 2
      else if n < 0xF5 then some 3
      else none := by
  have hn : (UInt8.ofNat n).toNat = n := by
    rw [UInt8.toNat_ofNat', Nat.mod_eq_of_lt h]
  simp only [lead?, UInt8.lt_iff_toNat_lt, ← UInt8.toNat_inj, hn]
  simp only [UInt8.reduceToNat]
  grind

/-- The first byte of a character announces the bytes that follow it. -/
theorem exists_utf8EncodeChar_eq_cons (c : Char) :
    ∃ b more, String.utf8EncodeChar c = b :: more ∧
      (lead? b).map Lead.more = some more.length := by
  have hvalid : c.val.toNat < 0xD800 ∨ 0xDFFF < c.val.toNat ∧ c.val.toNat < 0x110000 := c.valid
  rw [String.utf8EncodeChar]
  split
  · refine ⟨_, _, rfl, ?_⟩
    rw [map_more_lead?_ofNat (by omega), if_pos (by omega)]
    rfl
  split
  · refine ⟨_, _, rfl, ?_⟩
    rw [map_more_lead?_ofNat (by omega), if_neg (by omega), if_neg (by omega),
      if_pos (by omega)]
    rfl
  split
  · refine ⟨_, _, rfl, ?_⟩
    rw [map_more_lead?_ofNat (by omega), if_neg (by omega), if_neg (by omega),
      if_neg (by omega), if_pos (by omega)]
    rfl
  · refine ⟨_, _, rfl, ?_⟩
    rw [map_more_lead?_ofNat (by omega), if_neg (by omega), if_neg (by omega),
      if_neg (by omega), if_neg (by omega), if_pos (by omega)]
    rfl

theorem encode_eq_flatMap (text : String) :
    encode text = text.toList.flatMap String.utf8EncodeChar := by
  rw [encode, ← String.utf8Encode_toList, List.utf8Encode]
  simp

/-- The first byte of a text announces the rest of its first character. -/
theorem exists_of_flatMap_eq_cons {chars : List Char} {b : UInt8} {rest : List UInt8}
    (h : chars.flatMap String.utf8EncodeChar = b :: rest) :
    ∃ (more : List UInt8) (others : List Char),
      rest = more ++ others.flatMap String.utf8EncodeChar ∧
      (lead? b).map Lead.more = some more.length := by
  obtain _ | ⟨c, others⟩ := chars
  · cases h
  · obtain ⟨first, more, hchar, hlead⟩ := exists_utf8EncodeChar_eq_cons c
    rw [List.flatMap_cons, hchar, List.cons_append] at h
    obtain ⟨rfl, rfl⟩ := List.cons.inj h
    exact ⟨more, others, rfl, hlead⟩

/-- Bytes that stand for a text are the bytes of that text. -/
theorem encode_of_decode? {bytes : List UInt8} {text : String}
    (h : decode? bytes = some text) : encode text = bytes := by
  rw [decode?, String.fromUTF8?] at h
  split at h
  · obtain rfl := Option.some.inj h
    simp [encode, String.fromUTF8]
  · cases h

end DocWeave.Utf8
