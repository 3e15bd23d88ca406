/-
Compressed files: a header, compressed data, and a trailer with the checksum and the
size of the data.  Only the first member of a file is read.
-/
import DocWeave.Deflate.Encoder
import DocWeave.Text.Utf8

namespace DocWeave.Gzip

/-! ### The checksum -/

/-- The modulus of the checksum, a polynomial over bits of degree 32: its bits in reverse,
without the highest one. -/
def modulus : UInt32 := 0xEDB88320

def reduceBit (register : UInt32) : UInt32 :=
  if register &&& 1 = 1 then (register >>> 1) ^^^ modulus else register >>> 1

def takeByte (register : UInt32) (b : UInt8) : UInt32 :=
  (List.range 8).foldl (fun register _ => reduceBit register) (register ^^^ b.toUInt32)

def checksum (bytes : List UInt8) : UInt32 :=
  (bytes.foldl takeByte 0xFFFFFFFF) ^^^ 0xFFFFFFFF

example : checksum [0x31, 0x32, 0x33, 0x34, 0x35, 0x36, 0x37, 0x38, 0x39] = 0xCBF43926 := by
  decide +kernel

/-! ### Members -/

inductive Fault where
  /-- The header or the trailer is cut short. -/
  | unexpectedEnd
  | invalidHeader
  | fieldTooLong
  /-- A checksum or the size of the data is wrong. -/
  | wrongChecksum
  | data (fault : Deflate.Fault)
  | notText
deriving Repr, DecidableEq

def Fault.message : Fault → String
  | unexpectedEnd => "unexpected end of file"
  | invalidHeader => "invalid gzip header"
  | fieldTooLong => "gzip header field too long"
  | wrongChecksum => "corrupt gzip stream does not have a matching checksum"
  | data .cutShort => "incomplete deflate stream"
  | data .corrupt => "corrupt deflate stream"
  | notText => "stream did not contain valid UTF-8"

/-- The two bytes that every compressed file starts with. -/
def mark : List UInt8 := [0x1F, 0x8B]

def isMarked (bytes : List UInt8) : Bool :=
  mark.isPrefixOf bytes

def bytesOfNat : Nat → Nat → List UInt8
  | 0, _ => []
  | count + 1, n => UInt8.ofNat n :: bytesOfNat count (n / 256)

def natOfBytes : List UInt8 → Nat
  | [] => 0
  | b :: rest => b.toNat + 256 * natOfBytes rest

def takeBytes (count : Nat) (bytes : List UInt8) :
    Except Fault (List UInt8 × List UInt8) :=
  let taken := bytes.take count
  if taken.length < count then .error .unexpectedEnd else .ok (taken, bytes.drop count)

/-- The bytes behind a field that ends with a zero. -/
def skipText (bytes : List UInt8) : Except Fault (List UInt8) :=
  let field := bytes.takeWhile (· ≠ 0)
  if 0xFFFF < field.length then .error .fieldTooLong
  else match bytes.dropWhile (· ≠ 0) with
    | [] => .error .unexpectedEnd
    | _ :: rest => .ok rest

def deflateMethod : UInt8 := 8

/-- Reads the header of a member and gives the bytes behind it.  Flags tell which
fields follow the fixed part: a checksum of the header, extra data, a name, a
comment. -/
def skipHeader (bytes : List UInt8) : Except Fault (List UInt8) := do
  let (fixed, rest) ← takeBytes 10 bytes
  let flags := (fixed.getD 3 0).toNat
  if !isMarked fixed ∨ fixed.getD 2 0 ≠ deflateMethod ∨ 32 ≤ flags then throw .invalidHeader
  let rest ←
    if flags.testBit 2 then do
      let (size, rest) ← takeBytes 2 rest
      let (_, rest) ← takeBytes (natOfBytes size) rest
      pure rest
    else pure rest
  let rest ← if flags.testBit 3 then skipText rest else pure rest
  let rest ← if flags.testBit 4 then skipText rest else pure rest
  if flags.testBit 1 then
    let header := bytes.take (bytes.length - rest.length)
    let (stored, rest) ← takeBytes 2 rest
    if natOfBytes stored ≠ (checksum header).toNat % 0x10000 then throw .wrongChecksum
    return rest
  else return rest

/-- The data of the first member. -/
def decompress (bytes : List UInt8) : Except Fault (List UInt8) := do
  let compressed ← skipHeader bytes
  let (content, rest) ← (Deflate.inflate compressed).mapError .data
  let (stored, rest) ← takeBytes 4 rest
  let (size, _) ← takeBytes 4 rest
  if natOfBytes stored ≠ (checksum content).toNat ∨
      natOfBytes size ≠ content.length % 0x100000000 then
    throw .wrongChecksum
  return content

def text (bytes : List UInt8) : Except Fault String := do
  match Utf8.decode? (← decompress bytes) with
  | some text => return text
  | none => throw .notText

def plainHeader : List UInt8 :=
  mark ++ [deflateMethod, 0, 0, 0, 0, 0, 0, 0xFF]

def compress (content : List UInt8) : List UInt8 :=
  plainHeader ++ Deflate.deflate content ++ bytesOfNat 4 (checksum content).toNat ++
    bytesOfNat 4 (content.length % 0x100000000)

end DocWeave.Gzip
