/-
Members of compressed files.  A file may hold several members in a row, but what is read is the
first one alone: it is found in the same bytes, whatever stands behind it.
-/
import DocWeave.Gzip.Member
import DocWeave.Proofs.Deflate.Encoder

namespace DocWeave.Gzip

/-! ### Bytes of numbers -/

theorem length_bytesOfNat (count n : Nat) : (bytesOfNat count n).length = count := by
  induction count generalizing n with
  | zero => rfl
  | succ count ih => rw [bytesOfNat, List.length_cons, ih]

theorem natOfBytes_bytesOfNat {count n : Nat} (h : n < 256 ^ count) :
    natOfBytes (bytesOfNat count n) = n := by
  induction count generalizing n with
  | zero =>
      rw [Nat.pow_zero, Nat.lt_one_iff] at h
      rw [h]
      rfl
  | succ count ih =>
      have hhigh : n / 256 < 256 ^ count :=
        Nat.div_lt_of_lt_mul (by rwa [Nat.pow_succ, Nat.mul_comm] at h)
      rw [bytesOfNat, natOfBytes, ih hhigh, UInt8.toNat_ofNat']
      exact Nat.mod_add_div n 256

theorem takeBytes_append {count : Nat} {taken : List UInt8} (h : taken.length = count)
    (rest : List UInt8) : takeBytes count (taken ++ rest) = .ok (taken, rest) := by
  simp [takeBytes, ← h]

/-! ### Complete members -/

/-- A complete member with the given data: a header, the data in compressed form, the checksum
and the size of the data, and nothing behind. -/
def IsMember (content bytes : List UInt8) : Prop :=
  ∃ body trailer, skipHeader bytes = .ok body ∧
    Deflate.inflate body = .ok (content, trailer) ∧
    trailer = bytesOfNat 4 (checksum content).toNat ++ bytesOfNat 4 (content.length % 0x100000000)

theorem skipHeader_append (rest : List UInt8) : skipHeader (plainHeader ++ rest) = .ok rest := by
  have hlength : plainHeader.length = 10 := rfl
  have hflags : (plainHeader.getD 3 0).toNat = 0 := rfl
  simp only [skipHeader, takeBytes_append hlength, bind, Except.bind, hflags, Nat.zero_testBit]
  rfl

theorem isMember_compress (content : List UInt8) : IsMember content (compress content) := by
  refine ⟨_, _, ?_, Deflate.inflate_deflate content _, rfl⟩
  rw [compress, List.append_assoc, List.append_assoc, skipHeader_append]

/-! ### Fields of a header -/

theorem takeBytes_eq_ok {count : Nat} {bytes : List UInt8} {r : List UInt8 × List UInt8}
    (h : takeBytes count bytes = .ok r) :
    count ≤ bytes.length ∧ r = (bytes.take count, bytes.drop count) := by
  rw [takeBytes] at h
  split at h
  · cases h
  next hlong =>
    rw [List.length_take] at hlong
    exact ⟨by omega, (Except.ok.inj h).symm⟩

def skipIf (present : Bool) (skip : List UInt8 → Except Fault (List UInt8))
    (bytes : List UInt8) : Except Fault (List UInt8) :=
  if present then skip bytes else .ok bytes

/-- The bytes behind extra data, which stand behind their size. -/
def skipExtra (bytes : List UInt8) : Except Fault (List UInt8) := do
  let (size, rest) ← takeBytes 2 bytes
  let (_, rest) ← takeBytes (natOfBytes size) rest
  return rest

/-- The bytes behind the checksum of the header, which has to be that of the bytes in front. -/
def skipChecksum (whole bytes : List UInt8) : Except Fault (List UInt8) := do
  let (stored, rest) ← takeBytes 2 bytes
  if natOfBytes stored ≠ (checksum (whole.take (whole.length - bytes.length))).toNat % 0x10000 then
    throw .wrongChecksum
  return rest

theorem skipHeader_eq (bytes : List UInt8) : skipHeader bytes = (do
    let header ← takeBytes 10 bytes
    let flags := (header.1.getD 3 0).toNat
    if !isMarked header.1 ∨ header.1.getD 2 0 ≠ deflateMethod ∨ 32 ≤ flags then
      throw .invalidHeader
    let rest ← skipIf (flags.testBit 2) skipExtra header.2
    let rest ← skipIf (flags.testBit 3) skipText rest
    let rest ← skipIf (flags.testBit 4) skipText rest
    skipIf (flags.testBit 1) (skipChecksum bytes) rest) := by
  rw [skipHeader]
  congr
  funext header
  obtain ⟨fixed, rest⟩ := header
  dsimp only
  split
  · rfl
  -- extra data is the one field that takes two steps, which are steps of the whole there
  have hextra (next : List UInt8 → Except Fault (List UInt8)) : skipExtra rest >>= next = (do
      let size ← takeBytes 2 rest
      let extra ← takeBytes (natOfBytes size.1) size.2
      next extra.2) := by
    simp only [skipExtra, bind_assoc, pure_bind]
  cases (fixed.getD 3 0).toNat.testBit 2 with
  | false =>
      cases (fixed.getD 3 0).toNat.testBit 3 <;> cases (fixed.getD 3 0).toNat.testBit 4 <;>
        cases (fixed.getD 3 0).toNat.testBit 1 <;> rfl
  | true =>
      refine Eq.trans ?_ (hextra _).symm
      cases (fixed.getD 3 0).toNat.testBit 3 <;> cases (fixed.getD 3 0).toNat.testBit 4 <;>
        cases (fixed.getD 3 0).toNat.testBit 1 <;> rfl

/-! ### Reading in front of more bytes -/

section Behind

variable (more : List UInt8)

theorem takeBytes_behind (count : Nat) (bytes : List UInt8) :
    CarriesOver (fun r r' => r' = (r.1, r.2 ++ more)) (takeBytes count bytes)
      (takeBytes count (bytes ++ more)) := by
  intro r h
  obtain ⟨hle, rfl⟩ := takeBytes_eq_ok h
  refine ⟨_, ?_, rfl⟩
  rw [takeBytes, List.take_append_of_le_length hle, List.drop_append_of_le_length hle,
    List.length_take_of_le hle, if_neg (Nat.lt_irrefl count)]

theorem skipText_behind (bytes : List UInt8) :
    CarriesOver (fun rest rest' => rest' = rest ++ more) (skipText bytes)
      (skipText (bytes ++ more)) := by
  intro rest h
  refine ⟨_, ?_, rfl⟩
  rw [skipText] at h
  split at h
  · cases h
  next hshort =>
    cases hdrop : bytes.dropWhile (· ≠ 0) with
    | nil =>
        rw [hdrop] at h
        cases h
    | cons zero rest' =>
        rw [hdrop] at h
        cases h
        have hfield : (bytes ++ more).takeWhile (· ≠ 0) = bytes.takeWhile (· ≠ 0) := by
          rw [List.takeWhile_append, if_neg]
          intro hall
          have hsplit : bytes.takeWhile (· ≠ 0) ++ bytes.dropWhile (· ≠ 0) = bytes :=
            List.takeWhile_append_dropWhile
          have hlength := congrArg List.length hsplit
          rw [hdrop, List.length_append, List.length_cons] at hlength
          omega
        have hbehind : (bytes ++ more).dropWhile (· ≠ 0) = zero :: (rest ++ more) := by
          rw [List.dropWhile_append, hdrop]
          rfl
        rw [skipText, hfield, if_neg hshort, hbehind]

theorem skipIf_behind (present : Bool) {skip skip' : List UInt8 → Except Fault (List UInt8)}
    {bytes : List UInt8} (h : CarriesOver (fun rest rest' => rest' = rest ++ more) (skip bytes)
      (skip' (bytes ++ more))) :
    CarriesOver (fun rest rest' => rest' = rest ++ more) (skipIf present skip bytes)
      (skipIf present skip' (bytes ++ more)) := by
  cases present with
  | true => exact h
  | false => exact .ok rfl

theorem skipExtra_behind (bytes : List UInt8) :
    CarriesOver (fun rest rest' => rest' = rest ++ more) (skipExtra bytes)
      (skipExtra (bytes ++ more)) := by
  refine (takeBytes_behind more 2 bytes).bind ?_
  rintro ⟨size, rest⟩ _ rfl
  refine (takeBytes_behind more _ rest).bind ?_
  rintro ⟨extra, rest⟩ _ rfl
  exact .ok rfl

theorem skipChecksum_behind (whole bytes : List UInt8) :
    CarriesOver (fun rest rest' => rest' = rest ++ more) (skipChecksum whole bytes)
      (skipChecksum (whole ++ more) (bytes ++ more)) := by
  have hheader : (whole ++ more).take ((whole ++ more).length - (bytes ++ more).length) =
      whole.take (whole.length - bytes.length) := by
    rw [List.length_append, List.length_append, Nat.add_sub_add_right,
      List.take_append_of_le_length (Nat.sub_le _ _)]
  refine (takeBytes_behind more 2 bytes).bind ?_
  rintro ⟨stored, rest⟩ _ rfl
  dsimp only
  rw [hheader]
  split
  · exact .error _ _
  · exact .ok rfl

/-- A header is read alike in front of more bytes, and so is what its checksum is taken of. -/
theorem skipHeader_behind (bytes : List UInt8) :
    CarriesOver (fun rest rest' => rest' = rest ++ more) (skipHeader bytes)
      (skipHeader (bytes ++ more)) := by
  rw [skipHeader_eq, skipHeader_eq]
  refine (takeBytes_behind more 10 bytes).bind ?_
  rintro ⟨fixed, rest⟩ _ rfl
  dsimp only
  split
  · exact .error _ _
  refine (skipIf_behind more _ (skipExtra_behind more rest)).bind ?_
  rintro rest₁ _ rfl
  refine (skipIf_behind more _ (skipText_behind more rest₁)).bind ?_
  rintro rest₂ _ rfl
  refine (skipIf_behind more _ (skipText_behind more rest₂)).bind ?_
  rintro rest₃ _ rfl
  exact skipIf_behind more _ (skipChecksum_behind more bytes rest₃)

end Behind

/-! ### Reading a member -/

/-- Only what is marked has a header. -/
theorem isMarked_of_skipHeader {bytes body : List UInt8} (h : skipHeader bytes = .ok body) :
    isMarked bytes = true := by
  rw [skipHeader_eq] at h
  obtain ⟨⟨fixed, rest⟩, hfixed, h⟩ := exists_of_bind_eq_ok h
  obtain ⟨-, hfixed⟩ := takeBytes_eq_ok hfixed
  obtain ⟨rfl, -⟩ := Prod.mk.inj hfixed
  dsimp only at h
  split at h
  · cases h
  next hvalid =>
    have hmarked : isMarked (bytes.take 10) = true := by
      cases hmark : isMarked (bytes.take 10) with
      | true => rfl
      | false => exact absurd (.inl (by rw [hmark]; rfl)) hvalid
    exact List.isPrefixOf_iff_prefix.2
      ((List.isPrefixOf_iff_prefix.1 hmarked).trans (List.take_prefix 10 bytes))

theorem IsMember.isMarked {content bytes : List UInt8} (h : IsMember content bytes)
    (more : List UInt8) : isMarked (bytes ++ more) = true := by
  obtain ⟨body, trailer, hheader, -, -⟩ := h
  obtain ⟨_, hheader, rfl⟩ := skipHeader_behind more bytes body hheader
  exact isMarked_of_skipHeader hheader

/-- The data of the first member is all that is given, whatever stands behind it. -/
theorem IsMember.decompress_append {content bytes : List UInt8} (h : IsMember content bytes)
    (more : List UInt8) : decompress (bytes ++ more) = .ok content := by
  obtain ⟨body, trailer, hheader, hinflate, rfl⟩ := h
  obtain ⟨_, hheader, rfl⟩ := skipHeader_behind more bytes body hheader
  have hsum : (checksum content).toNat < 256 ^ 4 := UInt32.toNat_lt _
  have hsize : content.length % 0x100000000 < 256 ^ 4 := Nat.mod_lt _ (by decide)
  simp only [decompress, hheader, bind, Except.bind, Deflate.inflate_append hinflate more,
    Except.mapError, List.append_assoc, takeBytes_append (length_bytesOfNat 4 _),
    natOfBytes_bytesOfNat hsum, natOfBytes_bytesOfNat hsize, ne_eq, not_true_eq_false, or_self,
    ↓reduceIte]
  rfl

/-- The text of a compressed file is the one that its data is the bytes of. -/
theorem text_of_decompress {text : String} {bytes : List UInt8}
    (h : decompress bytes = .ok (Utf8.encode text)) : Gzip.text bytes = .ok text := by
  simp only [Gzip.text, h, bind, Except.bind, Utf8.decode?_encode]
  rfl

/-- A text in the first member is read, and none of the text behind it. -/
theorem IsMember.text_append {text : String} {bytes : List UInt8}
    (h : IsMember (Utf8.encode text) bytes) (more : List UInt8) :
    Gzip.text (bytes ++ more) = .ok text :=
  text_of_decompress (h.decompress_append more)

/-! ### Compressed data -/

theorem isMarked_compress (content : List UInt8) : isMarked (compress content) = true := rfl

theorem decompress_compress (content : List UInt8) :
    decompress (compress content) = .ok content := by
  have hread := (isMember_compress content).decompress_append []
  rwa [List.append_nil] at hread

end DocWeave.Gzip
