import BootLogo.Log
import BootLogo.Runs.Token

/-!
# Unpacking a run-length stream

A stream is the magic number, the length of what it unpacks to, and tokens. Tokens are applied one
after another until the declared length is reached; what follows then is not looked at.

* `declaredLength` checks the front of a stream.
* `Progress` is what has happened so far, `Progress.next` applies one token, `Progress.run` all of them.
* `decode` unpacks into a buffer. The buffer holds the output of every token that was applied, also when
  a later one fails; nothing else of it changes.
-/

namespace BootLogo.Runs

/-- The bytes in front of the tokens. -/
def frontSize : Nat := 8

/-- Whether `stream` starts with the magic number. -/
def isStream (stream : Bytes) : Bool := 4 ≤ stream.length ∧ stream.word 0 = magic

/-- The length that the front of `stream` declares. -/
def declaredLength (stream : Bytes) : Except Error Nat :=
  if stream.length ≤ frontSize then .error (.tooShort stream.length)
  else if stream.word 0 ≠ magic then .error (.badMagic (stream.word 0))
  else .ok (stream.word 4)

/-- How far a stream has been unpacked: the bytes of it that are used up, those that are left, what has
been written, and each header that was read with its place. -/
structure Progress where
  offset : Nat
  rest : Bytes
  output : Array UInt8
  headers : Array (Nat × Header)

namespace Progress

/-- At the first token. -/
def start (stream : Bytes) : Progress := ⟨frontSize, stream.drop frontSize, #[], #[]⟩

/-- The step over one token. -/
inductive Step where
  | applied (progress : Progress)
  /-- The stream ends inside the token or in front of it. -/
  | cut (progress : Progress)
  /-- The token would write more than is wanted. -/
  | overruns (progress : Progress)

/-- Reads the next token and writes its output, unless that goes past `target` bytes in all. -/
def next (target : Nat) (progress : Progress) : Step :=
  match Header.parse? progress.rest with
  | none => .cut progress
  | some header =>
    let seen := { progress with headers := progress.headers.push (progress.offset, header) }
    if target - progress.output.size < header.outputSize then .overruns seen
    else
      match Bytes.split? (progress.rest.drop header.size) header.payloadSize with
      | none => .cut seen
      | some (payload, rest) => .applied
        { seen with
          offset := progress.offset + header.size + header.payloadSize
          rest := rest
          output := progress.output ++ (Token.ofPayload header payload).expand }

theorem length_rest_next {target : Nat} {progress later : Progress}
    (h : progress.next target = .applied later) : later.rest.length < progress.rest.length := by
  unfold next at h
  split at h
  · cases h
  · rename_i header hparse
    have hpos := Header.parse?_size_pos hparse
    have hne : progress.rest ≠ [] := by
      intro hnil
      rw [hnil] at hparse
      cases hparse
    simp only at h
    split at h
    · cases h
    · split at h
      · cases h
      · rename_i payload rest hsplit
        obtain ⟨hrest, -⟩ := Bytes.split?_eq_some hsplit
        cases h
        have hlen := congrArg List.length hrest
        simp only [List.length_drop, List.length_append] at hlen
        have := List.length_pos_iff.2 hne
        simp only
        omega

/-- Applies tokens until `target` bytes are written. The last step says why it ended; `applied` means
that the target is reached. -/
def run (target : Nat) (progress : Progress) : Step :=
  if target ≤ progress.output.size then .applied progress
  else
    match _h : progress.next target with
    | .applied later => run target later
    | .cut stuck => .cut stuck
    | .overruns stuck => .overruns stuck
termination_by progress.rest.length
decreasing_by exact length_rest_next _h

end Progress

/-- What unpacking a stream into a buffer comes to: the number of bytes or the error, the whole buffer
afterwards, how much of the stream was used, and the headers that were read. -/
structure Decoding where
  result : Except Error Nat
  buffer : Bytes
  consumed : Nat
  headers : List (Nat × Header)

/-- Nothing was unpacked. -/
def Decoding.refused (error : Error) (buffer : Bytes) : Decoding := ⟨.error error, buffer, 0, []⟩

/-- The tokens of `progress` were applied to `buffer`. -/
def Decoding.after (progress : Progress) (buffer : Bytes) (result : Except Error Nat) : Decoding :=
  ⟨result, buffer.overwrite progress.output.toList, progress.offset, progress.headers.toList⟩

/-- Unpacks `stream` into the front of `buffer`. -/
def decode (stream buffer : Bytes) : Decoding :=
  match declaredLength stream with
  | .error error => .refused error buffer
  | .ok declared =>
    if buffer.length < declared then .refused (.outputTooSmall declared buffer.length) buffer
    else
      match (Progress.start stream).run declared with
      | .applied progress => .after progress buffer (.ok declared)
      | .cut progress =>
        .after progress buffer (.error (.truncated progress.offset progress.output.size declared))
      | .overruns progress =>
        .after progress buffer (.error (.overrun progress.offset progress.output.size declared))

/-- The unpacked bytes, or the error. -/
def Decoding.bytes (decoding : Decoding) : Except Error Bytes :=
  decoding.result.map fun length => decoding.buffer.take length

/-- The log line on a header read at `offset`. -/
def Header.entry (offset : Nat) (header : Header) : Log.Entry :=
  let place := Hex.marked offset
  let kind := header.kind.name
  let length := header.length
  let size := header.size
  .trace s!"rle: {place}: {kind} len={length} hdr={size}"

/-- What unpacking reports: each header, and the sizes if all went well. -/
def Decoding.log (decoding : Decoding) : Log :=
  let headers := decoding.headers.map fun (offset, header) => header.entry offset
  match decoding.result with
  | .ok length =>
    let consumed := decoding.consumed
    headers ++ [.debug s!"rle: {consumed} -> {length} bytes"]
  | .error _ => headers

end BootLogo.Runs
