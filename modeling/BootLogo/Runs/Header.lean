import BootLogo.Bytes
import BootLogo.Log

/-!
# Token headers of a run-length stream

A token starts with one to four header bytes. The top four bits of the first are flags: more length
bytes follow, the token repeats, it repeats a word, it repeats pixels that share a byte. The low bits
are the top of the length: six of a literal, four of a repeat. Each further byte adds seven bits of
length; its top bit says whether another one follows, except in the fourth, where it means nothing.

* `Header.parse?` reads a header off the front of a byte string.
* `Header.shortest` is the shortest spelling of a kind and a length.
* `Header.write` puts it into a buffer.
-/

namespace BootLogo.Runs

/-- What a token stands for: bytes as they are, one byte repeated, a word of four bytes repeated, or
pixels of four bytes that share one. -/
inductive Kind where
  | literal
  | byte
  | word
  | alpha
  deriving DecidableEq

namespace Kind

def name : Kind → String
  | .literal => "Literal"
  | .byte => "Byte"
  | .word => "Word"
  | .alpha => "Alpha"

/-- The flags of the first header byte, apart from the one for more length bytes. -/
def flags : Kind → Nat
  | .literal => 0
  | .byte => 64
  | .word => 96
  | .alpha => 80

/-- How many values the length bits of the first header byte have: six bits or four. -/
def topRange : Kind → Nat
  | .literal => 64
  | _ => 16

/-- The greatest length that four header bytes can hold. -/
def maxLength (kind : Kind) : Nat := kind.topRange * 2097152 - 1

/-- The kind that the first header byte announces. The word flag wins over the one for pixels. -/
def ofByte (first : UInt8) : Kind :=
  if !first.toNat.testBit 6 then .literal
  else if first.toNat.testBit 5 then .word
  else if first.toNat.testBit 4 then .alpha
  else .byte

end Kind

/-- Why a stream cannot be read or written. -/
inductive Error where
  /-- No token follows the eight bytes in front. -/
  | tooShort (size : Nat)
  | badMagic (found : Nat)
  | outputTooSmall (needed capacity : Nat)
  /-- The stream ends, inside a token or between two, before the declared length is reached. -/
  | truncated (offset written declared : Nat)
  /-- A token would write past the declared length. -/
  | overrun (offset written declared : Nat)
  | lengthTooLarge (length : Nat)
  /-- A stream holds at least one token. -/
  | emptyInput
  deriving DecidableEq

/-- The number at the start of every stream: the text `RLE.` as a little-endian word. -/
def magic : Nat := 0x2E454C52

def Error.message : Error → String
  | .tooShort size => s!"rle: stream too short ({size} bytes)"
  | .badMagic found =>
    let seen := Hex.markedWord found
    let wanted := Hex.markedWord magic
    s!"rle: bad header {seen} (want {wanted})"
  | .outputTooSmall needed capacity => s!"rle: need {needed} bytes, buffer holds {capacity}"
  | .truncated offset written declared =>
    let place := Hex.marked offset
    s!"rle: stream ends at {place} after {written} of {declared} bytes"
  | .overrun offset written declared =>
    let place := Hex.marked offset
    s!"rle: token at {place} overruns declared length ({written} of {declared} written)"
  | .lengthTooLarge length => s!"rle: length {length} not encodable"
  | .emptyInput => "rle: nothing to encode"

/-- A token header: the kind, the length, and how many bytes spell them. -/
structure Header where
  kind : Kind
  length : Nat
  size : Nat
  deriving DecidableEq

namespace Header

/-! ## Reading -/

/-- Seven more bits of length from each byte, up to `room` bytes: the length and the bytes taken. -/
def extend? : Nat → Nat → Bytes → Option (Nat × Nat)
  | 0, length, _ => some (length, 0)
  | _ + 1, _, [] => none
  | room + 1, length, b :: rest =>
    let longer := length * 128 + b.toNat % 128
    if b.toNat.testBit 7 then
      (extend? room longer rest).map fun (total, taken) => (total, taken + 1)
    else some (longer, 1)

/-- The header at the front of `bytes`, unless it is cut short. -/
def parse? : Bytes → Option Header
  | [] => none
  | first :: rest =>
    let kind := Kind.ofByte first
    let length := first.toNat % kind.topRange
    if first.toNat.testBit 7 then
      (extend? 3 length rest).map fun (total, taken) => ⟨kind, total, taken + 1⟩
    else some ⟨kind, length, 1⟩

/-- How many bytes of the stream follow the header. -/
def payloadSize (header : Header) : Nat :=
  match header.kind with
  | .literal => header.length
  | .byte => 1
  | .word => 4
  | .alpha => 1 + 3 * header.length

/-- How many bytes the token writes. -/
def outputSize (header : Header) : Nat :=
  match header.kind with
  | .literal | .byte => header.length
  | .word | .alpha => 4 * header.length

theorem parse?_size_pos {bytes : Bytes} {header : Header} (h : parse? bytes = some header) :
    0 < header.size := by
  cases bytes with
  | nil => cases h
  | cons first rest =>
    simp only [parse?] at h
    split at h
    · obtain ⟨⟨total, taken⟩, _, rfl⟩ := Option.map_eq_some_iff.1 h
      exact Nat.succ_pos taken
    · cases h
      exact Nat.one_pos

/-! ## Writing -/

/-- How many bytes the shortest header of this kind and length has. -/
def shortestSize (kind : Kind) (length : Nat) : Nat :=
  if length < kind.topRange then 1
  else if length < kind.topRange * 128 then 2
  else if length < kind.topRange * 16384 then 3
  else 4

/-- The lowest `count` seven-bit groups of `length`, the topmost first. All but the last announce
another byte. -/
def groups : Nat → Nat → Bytes
  | 0, _ => []
  | count + 1, length =>
    let more := if count = 0 then 0 else 128
    UInt8.ofNat (more + length / Nat.pow 128 count % 128) :: groups count length

/-- The shortest header of this kind and length. -/
def shortest (kind : Kind) (length : Nat) : Bytes :=
  let further := shortestSize kind length - 1
  let more := if further = 0 then 0 else 128
  let top := length / Nat.pow 128 further % kind.topRange
  UInt8.ofNat (kind.flags + more + top) :: groups further length

/-- Writes the shortest header to the front of `buffer`: how many bytes that took, and the buffer
afterwards. A buffer that is too small is left alone. -/
def write (kind : Kind) (length : Nat) (buffer : Bytes) : Except Error Nat × Bytes :=
  if kind.maxLength < length then (.error (.lengthTooLarge length), buffer)
  else
    let header := shortest kind length
    if buffer.length < header.length then
      (.error (.outputTooSmall header.length buffer.length), buffer)
    else (.ok header.length, buffer.overwrite header)

end Header

end BootLogo.Runs
