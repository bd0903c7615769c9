/-!
# Byte strings

* `Bytes`: a byte string is a list of bytes.
* `wordLimit`: where 32-bit numbers end.
* `Bytes.word`: the little-endian word at an offset; bytes past the end count as zero.
* `Bytes.ofWord`: the four bytes of a word; `word_ofWord` reads them back.
* `Bytes.overwrite`: a buffer after its front has been written.
-/

namespace BootLogo

/-- Every 32-bit number is below this. -/
def wordLimit : Nat := 4294967296

/-- A string of bytes. -/
abbrev Bytes := List UInt8

namespace Bytes

/-- The byte at `offset`, zero past the end. -/
def byte (bytes : Bytes) (offset : Nat) : Nat := (bytes.getD offset 0).toNat

/-- The 16-bit little-endian number at `offset`. -/
def half (bytes : Bytes) (offset : Nat) : Nat :=
  bytes.byte offset + 256 * bytes.byte (offset + 1)

/-- The 32-bit little-endian number at `offset`. -/
def word (bytes : Bytes) (offset : Nat) : Nat :=
  bytes.half offset + 65536 * bytes.half (offset + 2)

/-- The four bytes of `value`, least significant first. -/
def ofWord (value : Nat) : Bytes :=
  [UInt8.ofNat value, UInt8.ofNat (value / 256), UInt8.ofNat (value / 65536),
    UInt8.ofNat (value / 16777216)]

/-- The two's complement reading of a 32-bit number. -/
def signed (value : Nat) : Int := if value < 2147483648 then value else value - wordLimit

/-- Exactly `count` bytes off the front and the rest, if there are that many. -/
def split? (bytes : Bytes) (count : Nat) : Option (Bytes × Bytes) :=
  let front := bytes.take count
  if front.length = count then some (front, bytes.drop count) else none

/-- `buffer` after `front` has been written to its start. -/
def overwrite (buffer front : Bytes) : Bytes := front ++ buffer.drop front.length

/-! ## Lemmas -/

@[simp] theorem length_ofWord (value : Nat) : (ofWord value).length = 4 := rfl

theorem byte_lt (bytes : Bytes) (offset : Nat) : bytes.byte offset < 256 :=
  (bytes.getD offset 0).toNat_lt

theorem word_lt (bytes : Bytes) (offset : Nat) : bytes.word offset < wordLimit := by
  have h0 := byte_lt bytes offset
  have h1 := byte_lt bytes (offset + 1)
  have h2 := byte_lt bytes (offset + 2)
  have h3 := byte_lt bytes (offset + 2 + 1)
  simp only [word, half, wordLimit]
  omega

theorem byte_congr {bytes other : Bytes} {count offset : Nat} (h : bytes.take count = other.take count)
    (hoffset : offset < count) : bytes.byte offset = other.byte offset := by
  have hget := congrArg (·[offset]?) h
  simp only [List.getElem?_take_of_lt hoffset] at hget
  rw [byte, byte, List.getD_eq_getElem?_getD, List.getD_eq_getElem?_getD, hget]

theorem half_congr {bytes other : Bytes} {count offset : Nat} (h : bytes.take count = other.take count)
    (hoffset : offset + 2 ≤ count) : bytes.half offset = other.half offset := by
  rw [half, half, byte_congr h (by omega), byte_congr h (by omega)]

theorem word_congr {bytes other : Bytes} {count offset : Nat} (h : bytes.take count = other.take count)
    (hoffset : offset + 4 ≤ count) : bytes.word offset = other.word offset := by
  rw [word, word, half_congr h (by omega), half_congr h (by omega)]

theorem word_ofWord (value : Nat) (rest : Bytes) (h : value < wordLimit) :
    Bytes.word (ofWord value ++ rest) 0 = value := by
  simp only [wordLimit] at h
  simp only [word, half, byte, ofWord, List.cons_append, List.nil_append, Nat.zero_add,
    List.getD_cons_zero, List.getD_cons_succ, UInt8.toNat_ofNat']
  omega

theorem split?_eq_some {bytes front rest : Bytes} {count : Nat}
    (h : bytes.split? count = some (front, rest)) :
    bytes = front ++ rest ∧ front.length = count := by
  simp only [split?] at h
  split at h
  · cases h
    exact ⟨(List.take_append_drop count bytes).symm, by assumption⟩
  · cases h

theorem split?_eq_none_iff {bytes : Bytes} {count : Nat} :
    bytes.split? count = none ↔ bytes.length < count := by
  simp only [split?, List.length_take]
  split <;> simp <;> omega

theorem split?_append (front rest : Bytes) :
    Bytes.split? (front ++ rest) front.length = some (front, rest) := by
  simp [split?]

theorem length_overwrite {buffer front : Bytes} (h : front.length ≤ buffer.length) :
    (overwrite buffer front).length = buffer.length := by
  simp [overwrite]
  omega

end Bytes

end BootLogo
