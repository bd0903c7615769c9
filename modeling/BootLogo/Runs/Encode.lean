import BootLogo.Runs.Token

/-!
# Packing bytes as a run-length stream

At each place a run of at least three equal bytes becomes a repeat, else a run of at least two equal
words; bytes between runs become literals. The tokens do not depend on the buffer that the stream is
written to.

* `tokens` cuts the data, `stream` spells the result.
* `encode` writes the stream piece by piece into a buffer and stops at the first piece that has no room.
* `capacity` is a buffer size that always suffices.
-/

namespace BootLogo.Runs

/-- How many leading bytes equal `value`, at most as many as one token can repeat. -/
def byteRun (value : UInt8) (bytes : Bytes) : Nat :=
  min Kind.byte.maxLength (bytes.takeWhile (· = value)).length

/-- How often the four bytes stand at the front of a byte string, on top of `seen`. -/
def wordCount (b0 b1 b2 b3 : UInt8) (seen : Nat) : Bytes → Nat
  | c0 :: c1 :: c2 :: c3 :: rest =>
    if c0 = b0 ∧ c1 = b1 ∧ c2 = b2 ∧ c3 = b3 then wordCount b0 b1 b2 b3 (seen + 1) rest else seen
  | _ => seen

/-- The repeat at the front of a byte string: three equal bytes or more, else two equal words or more,
at most as many as one token can repeat. -/
def leadingRepeat? : Bytes → Option Token
  | [] => none
  | value :: rest =>
    let run := byteRun value (value :: rest)
    if 3 ≤ run then some (.byte value run)
    else
      match rest with
      | b1 :: b2 :: b3 :: further =>
        let words := min Kind.word.maxLength (wordCount value b1 b2 b3 1 further)
        if 2 ≤ words then some (.word value b1 b2 b3 words) else none
      | _ => none

theorem leadingRepeat?_outputSize_pos {bytes : Bytes} {token : Token}
    (h : leadingRepeat? bytes = some token) : 0 < token.outputSize := by
  unfold leadingRepeat? at h
  split at h
  · cases h
  · simp only at h
    split at h
    · cases h
      simp only [Token.outputSize]
      omega
    · split at h
      · split at h
        · cases h
          simp only [Token.outputSize]
          omega
        · cases h
      · cases h

/-- The longest literal that one token can hold. -/
def literalLimit : Nat := Kind.literal.maxLength

/-- `bytes` as literals, each as long as a token can be. -/
def literals (bytes : Bytes) : List Token :=
  if bytes = [] then []
  else .literal (bytes.take literalLimit) :: literals (bytes.drop literalLimit)
termination_by bytes.length
decreasing_by
  rename_i h
  have : 0 < bytes.length := List.length_pos_iff.2 h
  have : 0 < literalLimit := by decide
  simp only [List.length_drop]
  omega

/-- Cuts what is left of the data into tokens. `pending` holds, last one first, the bytes since the last
repeat, `done` the tokens so far. -/
def cut (done : Array Token) (pending : Bytes) : Bytes → Array Token
  | [] => done ++ literals pending.reverse
  | value :: rest =>
    match _h : leadingRepeat? (value :: rest) with
    | some token =>
      cut ((done ++ literals pending.reverse).push token) []
        ((value :: rest).drop token.outputSize)
    | none => cut done (value :: pending) rest
termination_by data => data.length
decreasing_by
  · have := leadingRepeat?_outputSize_pos _h
    simp only [List.length_drop, List.length_cons]
    omega
  · simp

/-- The tokens that stand for `data`. -/
def tokens (data : Bytes) : List Token := (cut #[] [] data).toList

/-- A part of a stream that is written at once. -/
inductive Piece where
  | header (bytes : Bytes)
  | payload (bytes : Bytes)

namespace Piece

def bytes : Piece → Bytes
  | .header bytes => bytes
  | .payload bytes => bytes

/-- What a buffer of `capacity` bytes, `used` of them taken, lacks for the piece. A header is measured
against the room that is left, a payload against the whole buffer. -/
def shortage (used capacity : Nat) : Piece → Error
  | .header bytes => .outputTooSmall bytes.length (capacity - used)
  | .payload bytes => .outputTooSmall (used + bytes.length) capacity

end Piece

/-- The two pieces of a token. -/
def Token.pieces (token : Token) : List Piece :=
  [.header (Header.shortest token.kind token.length), .payload token.payload]

/-- The pieces of the stream for `data`. -/
def pieces (data : Bytes) : List Piece :=
  .payload (Bytes.ofWord magic) :: .payload (Bytes.ofWord data.length) ::
    (tokens data).flatMap Token.pieces

/-- The stream for `data`. -/
def stream (data : Bytes) : Bytes := (pieces data).flatMap Piece.bytes

/-- What of `pieces` fits behind the bytes `written` of a buffer of `capacity` bytes: all bytes written,
and the shortage that stopped it. -/
def fit (capacity : Nat) (written : Array UInt8) : List Piece → Array UInt8 × Option Error
  | [] => (written, none)
  | piece :: rest =>
    if capacity < written.size + piece.bytes.length then
      (written, some (piece.shortage written.size capacity))
    else fit capacity (written ++ piece.bytes) rest

/-- What packing into a buffer comes to: the length of the stream or the error, and the buffer
afterwards. -/
structure Encoding where
  result : Except Error Nat
  buffer : Bytes

/-- Packs `data` into the front of `buffer`. -/
def encode (data buffer : Bytes) : Encoding :=
  if data = [] then ⟨.error .emptyInput, buffer⟩
  else if wordLimit ≤ data.length then ⟨.error (.lengthTooLarge data.length), buffer⟩
  else
    let (written, shortage) := fit buffer.length #[] (pieces data)
    let result := match shortage with
      | some error => .error error
      | none => .ok written.size
    ⟨result, buffer.overwrite written.toList⟩

/-- A buffer size that suffices for `size` bytes of data. -/
def capacity (size : Nat) : Nat := 8 + size + size / 32 + 8

end BootLogo.Runs
