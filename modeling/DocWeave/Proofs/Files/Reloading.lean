/-
Saved text is read back.  Saving compresses by the name of a file and loading decompresses by
its first bytes, and the two agree: compressed bytes start with the mark, and no text does,
since the second byte of the mark can only go on with a character that the first byte has not
begun.
-/
import DocWeave.Proofs.Files.Loading
import DocWeave.Proofs.Files.Saving
import DocWeave.Proofs.Gzip.Members
import DocWeave.Proofs.Text.Encoding

namespace DocWeave.Files

/-- No text starts with the mark of compressed files. -/
theorem isMarked_encode (text : String) : Gzip.isMarked (Utf8.encode text) = false := by
  rw [Bool.eq_false_iff]
  intro hmarked
  obtain ⟨rest, hrest⟩ := List.isPrefixOf_iff_prefix.1 hmarked
  rw [Utf8.encode_eq_flatMap] at hrest
  obtain ⟨more, others, hmore, hlead⟩ := Utf8.exists_of_flatMap_eq_cons hrest.symm
  -- the first byte is a character of its own, and the second one is none
  obtain rfl : more = [] := List.length_eq_zero_iff.1 (Option.some.inj hlead).symm
  obtain ⟨_, _, _, hnone⟩ := Utf8.exists_of_flatMap_eq_cons hmore.symm
  cases hnone

theorem decode_encode (text : String) : decode (Utf8.encode text) = .ok text := by
  rw [decode, isMarked_encode, Utf8.decode_encode]
  rfl

theorem isMarked_eq_false_of_decode? {bytes : Bytes} (h : (Utf8.decode? bytes).isSome) :
    Gzip.isMarked bytes = false := by
  obtain ⟨text, htext⟩ := Option.isSome_iff_exists.1 h
  rw [← Utf8.encode_of_decode? htext]
  exact isMarked_encode text

/-- What is known of a compressor: what it gives starts with the mark of compressed files, and
decompressing that gives the data back. -/
class LawfulCompressor [Compressor] : Prop where
  isMarked_of_compress {content bytes : Bytes} (h : Compressor.compress content = .ok bytes) :
    Gzip.isMarked bytes
  decompress_of_compress {content bytes : Bytes} (h : Compressor.compress content = .ok bytes) :
    Gzip.decompress bytes = .ok content

/-- The compressor of the command is one of those. -/
instance : LawfulCompressor where
  isMarked_of_compress h := by
    cases h
    exact Gzip.isMarked_compress _
  decompress_of_compress h := by
    cases h
    exact Gzip.decompress_compress _

section Saved

variable [Compressor] [LawfulCompressor] {path text : String} {bytes : Bytes}

/-- The name of a saved file and its first bytes tell the same about compression. -/
theorem isMarked_savedBytes (h : savedBytes path text = .ok bytes) :
    Gzip.isMarked bytes = isCompressed path.toList := by
  rw [savedBytes] at h
  split at h
  next hname => rw [LawfulCompressor.isMarked_of_compress h, hname]
  next hname =>
    cases h
    rw [isMarked_encode, Bool.eq_false_iff.2 hname]

theorem decode_savedBytes (h : savedBytes path text = .ok bytes) : decode bytes = .ok text := by
  rw [savedBytes] at h
  split at h
  next hname =>
    have htext := Gzip.text_of_decompress (LawfulCompressor.decompress_of_compress h)
    rw [decode, if_pos (LawfulCompressor.isMarked_of_compress h), htext]
    rfl
  next hname =>
    cases h
    exact decode_encode text

end Saved

theorem Disk.read_of_find? {disk : Disk} {path : String} {bytes : Bytes}
    (h : disk.find? path = some (.file bytes)) : disk.read path = .ok bytes := by
  obtain ⟨place, hlocate, hnode⟩ := find?_eq_some_iff.1 h
  simp only [read, hlocate, bind, Except.bind, hnode]
  rfl

/-- A file is loaded as the text that its bytes are decoded to. -/
theorem loadText_of_find? {device : Device} {path text : String} {bytes : Bytes}
    (h : device.disk.find? path = some (.file bytes)) (htext : decode bytes = .ok text) :
    (loadText path : StateM Device _).run device = (.ok text, device) := by
  have hread : (FileAccess.read path : StateM Device _).run device = (.ok bytes, device) :=
    Prod.ext (Disk.read_of_find? h) rfl
  rw [loadText, run_bind, hread]
  change ((decode bytes).mapError (LoadError.undecodable path), device) = _
  rw [htext]
  rfl

theorem loadInput_of_find? {device : Device} {path text : String} {bytes : Bytes}
    (h : device.disk.find? path = some (.file bytes)) (htext : decode bytes = .ok text)
    {given : Option Format} {format : Format} (hformat : given.or (formatOf? path) = some format) :
    (loadInput path given : StateM Device _).run device = (.ok ⟨format, text⟩, device) := by
  rw [loadInput, hformat]
  simp only
  rw [run_bind, loadText_of_find? h htext]
  rfl

/-- What was saved is loaded again, under any name.  The bytes in the file are marked as
compressed exactly when its name tells so, and bytes that stand for a text never are. -/
theorem loadInput_of_save_ok [Compressor] [LawfulCompressor] {path text : String}
    {device after : Device} {done : Unit}
    (h : (save path text : StateM Device _).run device = (.ok done, after))
    (format : Format) :
    (loadInput path (some format) : StateM Device _).run after = (.ok ⟨format, text⟩, after) ∧
      (∃ bytes, after.disk.find? path = some (.file bytes) ∧
        Gzip.isMarked bytes = isCompressed path.toList) ∧
      ∀ bytes, (Utf8.decode? bytes).isSome → Gzip.isMarked bytes = false := by
  obtain ⟨bytes, hsaved, hfile⟩ := find?_of_save_ok h
  refine ⟨?_, ⟨bytes, hfile, isMarked_savedBytes hsaved⟩, ?_⟩
  · exact loadInput_of_find? hfile (decode_savedBytes hsaved) Option.some_or
  · intro bytes htext
    exact isMarked_eq_false_of_decode? htext

/-- A text whose first byte is that of the mark, under a plain name and under a compressed
one. -/
theorem loadInput_of_save_ok_of_misleading_text :
    let text := "\x1F\u008B"
    let plain : Device := ⟨⟨[(["data.json"], .file [0x1F, 0xC2, 0x8B])]⟩, {}⟩
    let compressed : Device := ⟨⟨[(["data.json.gz"], .file [0x1F, 0x8B, 8, 0, 0, 0, 0, 0, 0, 0xFF,
      0x93, 0x3F, 0xD4, 0x0D, 0, 0x3B, 0xD2, 0x9D, 0x6B, 3, 0, 0, 0])]⟩, {}⟩
    ((save "data.json" text : StateM Device _).run ⟨Disk.empty, {}⟩ = (.ok (), plain) ∧
      (loadInput "data.json" (some .json) : StateM Device _).run plain =
        (.ok ⟨.json, text⟩, plain)) ∧
    (save "data.json.gz" text : StateM Device _).run ⟨Disk.empty, {}⟩ = (.ok (), compressed) ∧
      (loadInput "data.json.gz" (some .json) : StateM Device _).run compressed =
        (.ok ⟨.json, text⟩, compressed) := by
  intro text plain compressed
  have hencode : Utf8.encode text = [0x1F, 0xC2, 0x8B] := by decide +kernel
  have hcompress : Gzip.compress [0x1F, 0xC2, 0x8B] = [0x1F, 0x8B, 8, 0, 0, 0, 0, 0, 0, 0xFF,
      0x93, 0x3F, 0xD4, 0x0D, 0, 0x3B, 0xD2, 0x9D, 0x6B, 3, 0, 0, 0] := by decide +kernel
  have hplain : savedBytes "data.json" text = .ok [0x1F, 0xC2, 0x8B] := congrArg Except.ok hencode
  have hbytes : savedBytes "data.json.gz" text = .ok (Gzip.compress [0x1F, 0xC2, 0x8B]) :=
    congrArg (fun bytes => Except.ok (Gzip.compress bytes)) hencode
  have hsave : (save "data.json" text : StateM Device _).run ⟨Disk.empty, {}⟩ =
      (.ok (), plain) := by
    rw [save, hplain]
    rfl
  have hsave' : (save "data.json.gz" text : StateM Device _).run ⟨Disk.empty, {}⟩ =
      (.ok (), compressed) := by
    rw [save, hbytes, hcompress]
    rfl
  exact ⟨⟨hsave, (loadInput_of_save_ok hsave .json).1⟩,
    hsave', (loadInput_of_save_ok hsave' .json).1⟩

end DocWeave.Files
