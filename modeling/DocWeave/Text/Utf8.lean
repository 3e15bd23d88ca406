/-
Text as bytes, in UTF-8.  Bytes that are no text are told apart by where the first
bad sequence starts and by how many of its bytes could have begun a character.
-/
import DocWeave.Text.Remainder

namespace DocWeave.Utf8

inductive Fault where
  /-- So many bytes from this index on begin no character that could go on. -/
  | invalid (length index : Nat)
  /-- The bytes end inside the character that starts at this index. -/
  | incomplete (index : Nat)
deriving Repr, DecidableEq

def Fault.message : Fault → String
  | invalid length index =>
      "invalid utf-8 sequence of " ++ Nat.repr length ++ " bytes from index " ++ Nat.repr index
  | incomplete index => "incomplete utf-8 byte sequence from index " ++ Nat.repr index

/-- What the first byte of a character announces: how many bytes follow, and the
range of the next one, which is narrower where a shorter form or no character would
result. -/
structure Lead where
  more : Nat
  low : UInt8
  high : UInt8

def lead? (b : UInt8) : Option Lead :=
  if b < 0x80 then some ⟨0, 0x80, 0xBF⟩
  else if b < 0xC2 then none
  else if b < 0xE0 then some ⟨1, 0x80, 0xBF⟩
  else if b = 0xE0 then some ⟨2, 0xA0, 0xBF⟩
  else if b = 0xED then some ⟨2, 0x80, 0x9F⟩
  else if b < 0xF0 then some ⟨2, 0x80, 0xBF⟩
  else if b = 0xF0 then some ⟨3, 0x90, 0xBF⟩
  else if b < 0xF4 then some ⟨3, 0x80, 0xBF⟩
  else if b = 0xF4 then some ⟨3, 0x80, 0x8F⟩
  else none

/-- The fault among the bytes that should follow a first byte at `index`, of whose
character `seen` bytes are good so far. -/
def followFault? (index seen : Nat) (low high : UInt8) : Nat → List UInt8 → Option Fault
  | 0, _ => none
  | _ + 1, [] => some (.incomplete index)
  | more + 1, b :: rest =>
      if low ≤ b ∧ b ≤ high then followFault? index (seen + 1) 0x80 0xBF more rest
      else some (.invalid seen index)

def fault? (index : Nat) : List UInt8 → Option Fault
  | [] => none
  | b :: rest =>
      match lead? b with
      | none => some (.invalid 1 index)
      | some lead =>
          match followFault? index 1 lead.low lead.high lead.more rest with
          | some fault => some fault
          | none => fault? (index + 1 + lead.more) (rest.drop lead.more)
termination_by bytes => bytes.length
decreasing_by
  simp only [List.length_drop, List.length_cons]
  omega

def encode (text : String) : List UInt8 :=
  text.toByteArray.data.toList

def decode? (bytes : List UInt8) : Option String :=
  String.fromUTF8? ⟨bytes.toArray⟩

def decode (bytes : List UInt8) : Except Fault String :=
  match decode? bytes with
  | some text => .ok text
  | none => .error ((fault? 0 bytes).getD (.incomplete bytes.length))

/-- Every text is read back from its bytes. -/
theorem decode?_encode (text : String) : decode? (encode text) = some text := by
  have h : (⟨text.toByteArray.data.toList.toArray⟩ : ByteArray) = text.toByteArray := by
    simp
  simp only [decode?, encode, h, String.fromUTF8?, text.isValidUTF8, ↓reduceDIte]
  rfl

@[simp] theorem decode_encode (text : String) : decode (encode text) = .ok text := by
  simp [decode, decode?_encode]

example : fault? 0 [0x61, 0xE2, 0x82] = some (.incomplete 1) := by cbv
example : fault? 0 [0x61, 0xED, 0xA0, 0x80] = some (.invalid 1 1) := by cbv
example : fault? 0 [0xF1, 0x80, 0x80, 0x41] = some (.invalid 3 0) := by cbv

end DocWeave.Utf8
