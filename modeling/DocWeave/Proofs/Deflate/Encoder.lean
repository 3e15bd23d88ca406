/-
Data is found again in the block that holds it, whatever stands behind.  Each word of the code
is read as its symbol, so the words in a row give the data, and the zeros that fill up the last
byte are left over with what follows.
-/
import Mathlib
import DocWeave.Deflate.Encoder
import DocWeave.Proofs.Deflate.Extension

namespace DocWeave.Deflate

/-! ### Bits in bytes -/

theorem valueOf_cons (bit : Bool) (bits : List Bool) :
    valueOf (bit :: bits) = bit.toNat + 2 * valueOf bits := rfl

theorem valueOf_lt (bits : List Bool) : valueOf bits < 2 ^ bits.length := by
  induction bits with
  | nil => decide
  | cons bit bits ih =>
      have hbit : bit.toNat < 2 := bit.toNat_lt
      rw [valueOf_cons, List.length_cons, Nat.pow_succ]
      omega

theorem testBit_valueOf (bits : List Bool) (i : Nat) :
    (valueOf bits).testBit i = bits.getD i false := by
  induction bits generalizing i with
  | nil => simp [valueOf]
  | cons bit bits ih =>
      have hbit : bit.toNat < 2 := bit.toNat_lt
      rw [valueOf_cons]
      cases i with
      | zero => cases bit <;> simp [Nat.testBit_zero]
      | succ i =>
          have hhalf : (bit.toNat + 2 * valueOf bits) / 2 = valueOf bits := by omega
          rw [Nat.testBit_succ, hhalf, ih]
          rfl

theorem bitsOfByte_valueOf {bits : List Bool} (h : bits.length ≤ 8) :
    bitsOfByte (UInt8.ofNat (valueOf bits)) =
      bits ++ List.replicate (8 - bits.length) false := by
  have hbound : valueOf bits < 2 ^ 8 :=
    Nat.lt_of_lt_of_le (valueOf_lt bits) (Nat.pow_le_pow_right (by decide) h)
  have hvalue : (UInt8.ofNat (valueOf bits)).toNat = valueOf bits := by
    rw [UInt8.toNat_ofNat', Nat.mod_eq_of_lt hbound]
  rw [bitsOfByte, hvalue]
  apply List.ext_getElem
  · simp [h]
  · intro i hi _
    rw [List.getElem_map, List.getElem_range, testBit_valueOf, List.getElem_append]
    split
    next hlt => exact List.getD_eq_getElem _ _ hlt
    next hge => rw [List.getElem_replicate, List.getD_eq_default _ _ (Nat.le_of_not_lt hge)]

/-- Less than a byte of zeros is added. -/
theorem bitsOfBytes_packBits {begun : List Bool} (h : begun.length < 8) (bits : List Bool) :
    ∃ count < 8, bitsOfBytes (packBits begun bits) =
      begun ++ bits ++ List.replicate count false := by
  induction bits generalizing begun with
  | nil =>
      rw [packBits, List.append_nil]
      cases begun with
      | nil => exact ⟨0, by decide, rfl⟩
      | cons bit begun =>
          refine ⟨8 - (bit :: begun).length, Nat.sub_lt (by decide) (Nat.succ_pos _), ?_⟩
          rw [← bitsOfByte_valueOf h.le]
          exact List.append_nil _
  | cons bit bits ih =>
      rw [packBits, List.append_cons begun bit bits]
      split
      next hshort =>
        have hmore : (begun ++ [bit]).length < 8 := by
          rw [List.length_append, List.length_singleton]
          omega
        exact ih hmore
      next hfull =>
        have hbyte : (begun ++ [bit]).length = 8 := by
          rw [List.length_append, List.length_singleton]
          omega
        obtain ⟨count, hcount, hrest⟩ := @ih [] (by decide)
        refine ⟨count, hcount, ?_⟩
        rw [bitsOfBytes_cons, hrest, bitsOfByte_valueOf hbyte.le, hbyte]
        simp

/-! ### Words in a row -/

/-- Each word is that of its symbol and of no other. -/
theorem read_fixedWord_eq_some : ∀ s < 257,
    ((Code.ofLengths fixedLiterals).read (fixedWord s)).toOption.map (fun r => (r.1, r.2.1)) =
      some (s, []) := by
  decide +kernel

theorem read_fixedWord {s : Nat} (h : s < 257) (rest : List Bool) :
    ∃ hlt, (Code.ofLengths fixedLiterals).read (fixedWord s ++ rest) =
      .ok (s, ⟨rest, hlt⟩) := by
  have hword := read_fixedWord_eq_some s h
  rcases hread : (Code.ofLengths fixedLiterals).read (fixedWord s) with e | ⟨t, left, hlt⟩
  · simp [hread, Except.toOption] at hword
  · obtain ⟨rfl, rfl⟩ : t = s ∧ left = [] := by simpa [hread, Except.toOption] using hword
    obtain ⟨_, hread, hbehind, rfl⟩ := @Code.read_extends rest _ _ _ hread
    exact ⟨hbehind, hread⟩

theorem symbols_fixedWords (distances : Code) (content : List UInt8) {whole rest bits : List Bool}
    (hbits : bits = content.flatMap (fun b => fixedWord b.toNat) ++
      (fixedWord endOfBlock ++ rest))
    (h : bits.length ≤ whole.length) (out : Output) :
    ∃ hle, symbols (Code.ofLengths fixedLiterals) distances whole out bits h =
      .ok ((out.toList ++ content).toArray, ⟨rest, hle⟩) := by
  induction content generalizing bits out with
  | nil =>
      obtain rfl : bits = fixedWord endOfBlock ++ rest := hbits
      obtain ⟨hlt, hread⟩ := @read_fixedWord endOfBlock (by decide) rest
      refine ⟨Nat.le_trans hlt.le h, ?_⟩
      rw [symbols, hread]
      simp [bind, Except.bind, pure, Except.pure]
  | cons b content ih =>
      rw [List.flatMap_cons, List.append_assoc] at hbits
      subst hbits
      have hbyte : b.toNat < endOfBlock := b.toNat_lt
      obtain ⟨hlt, hread⟩ := read_fixedWord (hbyte.trans (Nat.lt_succ_self endOfBlock)) _
      obtain ⟨hle, hrest⟩ := ih rfl (Nat.le_trans hlt.le h) (out.push b)
      refine ⟨hle, ?_⟩
      rw [symbols, hread]
      simp only [bind, Except.bind, hbyte, ↓reduceIte, UInt8.ofNat_toNat, hrest]
      simp

/-! ### Whole blocks -/

theorem blocks_fixedBlock (content : List UInt8) (rest : List Bool) :
    blocks #[] (fixedBlock content ++ rest) = .ok (content.toArray, rest) := by
  obtain ⟨hle, hread⟩ := symbols_fixedWords (Code.ofLengths fixedDistances) content
    rfl (length_le_self (content.flatMap (fun b => fixedWord b.toNat) ++
      (fixedWord endOfBlock ++ rest))) #[]
  rw [fixedBlock, List.cons_append, blocks]
  simp only [List.cons_append, List.append_assoc, number, Except.map, bind, Except.bind,
    Rest.within, block, Bool.toNat_true, Bool.toNat_false, hread]
  rfl

/-- What is compressed is found again, and what stands behind is handed back. -/
theorem inflate_deflate (content rest : List UInt8) :
    inflate (deflate content ++ rest) = .ok (content, rest) := by
  obtain ⟨count, hcount, hbits⟩ := @bitsOfBytes_packBits [] (by decide) (fixedBlock content)
  have hblocks := blocks_fixedBlock content (List.replicate count false ++ bitsOfBytes rest)
  have hbehind : (deflate content ++ rest).length -
      (List.replicate count false ++ bitsOfBytes rest).length / 8 = (deflate content).length := by
    rw [List.length_append, List.length_append, List.length_replicate, length_bitsOfBytes]
    omega
  rw [inflate, bitsOfBytes_append, deflate, hbits, List.nil_append, List.append_assoc, hblocks]
  simp only [bind, Except.bind]
  rw [← deflate, hbehind, List.drop_left]
  rfl

end DocWeave.Deflate
