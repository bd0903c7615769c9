import BootLogo.Runs.Header

/-!
# Tokens of a run-length stream

* `Token`: a header together with the payload it announces.
* `Token.expand`: the bytes a token stands for. A repeated word is its four bytes as they are; a pixel
  that shares a byte is that byte followed by its own three, last one first.
* `Token.payload`: the bytes after the header.
-/

namespace BootLogo.Runs

/-- A complete token. -/
inductive Token where
  | literal (bytes : Bytes)
  | byte (value : UInt8) (count : Nat)
  | word (b0 b1 b2 b3 : UInt8) (count : Nat)
  | alpha (shared : UInt8) (pixels : List (UInt8 × UInt8 × UInt8))
  deriving DecidableEq

namespace Token

def kind : Token → Kind
  | .literal _ => .literal
  | .byte .. => .byte
  | .word .. => .word
  | .alpha .. => .alpha

/-- The length that the header states. -/
def length : Token → Nat
  | .literal bytes => bytes.length
  | .byte _ count => count
  | .word _ _ _ _ count => count
  | .alpha _ pixels => pixels.length

/-- The bytes after the header. -/
def payload : Token → Bytes
  | .literal bytes => bytes
  | .byte value _ => [value]
  | .word b0 b1 b2 b3 _ => [b0, b1, b2, b3]
  | .alpha shared pixels => shared :: pixels.flatMap fun (b1, b2, b3) => [b1, b2, b3]

/-- The bytes that the token stands for. -/
def expand : Token → Bytes
  | .literal bytes => bytes
  | .byte value count => List.replicate count value
  | .word b0 b1 b2 b3 count => (List.replicate count [b0, b1, b2, b3]).flatten
  | .alpha shared pixels => pixels.flatMap fun (b1, b2, b3) => [shared, b3, b2, b1]

/-- How many bytes the token stands for. -/
def outputSize : Token → Nat
  | .literal bytes => bytes.length
  | .byte _ count => count
  | .word _ _ _ _ count => 4 * count
  | .alpha _ pixels => 4 * pixels.length

/-- The shortest spelling of the token. -/
def spell (token : Token) : Bytes := Header.shortest token.kind token.length ++ token.payload

/-- Adds the triples of a byte string to those `seen` so far, newest first; what is left over at the end
is dropped. -/
def triplesOnto (seen : List (UInt8 × UInt8 × UInt8)) : Bytes → List (UInt8 × UInt8 × UInt8)
  | b1 :: b2 :: b3 :: rest => triplesOnto ((b1, b2, b3) :: seen) rest
  | _ => seen.reverse

/-- A byte string cut into triples. -/
def triples (bytes : Bytes) : List (UInt8 × UInt8 × UInt8) := triplesOnto [] bytes

/-- The token that a header and a payload of its size make. -/
def ofPayload (header : Header) (payload : Bytes) : Token :=
  match header.kind with
  | .literal => .literal payload
  | .byte => .byte (payload.getD 0 0) header.length
  | .word =>
    .word (payload.getD 0 0) (payload.getD 1 0) (payload.getD 2 0) (payload.getD 3 0) header.length
  | .alpha => .alpha (payload.getD 0 0) (triples (payload.drop 1))

end Token

end BootLogo.Runs
