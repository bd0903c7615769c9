import BootLogo.Proofs.Runs.Spelling
import BootLogo.Runs.Decode

/-!
# What a run-length stream stands for

The meaning of a stream is said without the decoder: `Means stored shown` lists the four kinds of complete
token, header and payload, with the bytes that each stands for; a `Chunk` is such a token; `Denotes stream
output` says that the stream is the magic number, the length of the output, and chunks of which the fewest
that reach the length stand for exactly the output.

`means_of_payload` and `Means.exists_payload` tie the kinds of token to headers and payloads as they are
read.
-/

namespace BootLogo.Runs

/-- The stored bytes are one complete token, which stands for the shown bytes. -/
inductive Means : Bytes → Bytes → Prop where
  | literal {size : Nat} {spelled payload : Bytes}
      (header : Spelling ⟨.literal, payload.length, size⟩ spelled) :
      Means (spelled ++ payload) payload
  | byte {count size : Nat} {spelled : Bytes} {value : UInt8}
      (header : Spelling ⟨.byte, count, size⟩ spelled) :
      Means (spelled ++ [value]) (List.replicate count value)
  | word {count size : Nat} {spelled : Bytes} {b0 b1 b2 b3 : UInt8}
      (header : Spelling ⟨.word, count, size⟩ spelled) :
      Means (spelled ++ [b0, b1, b2, b3]) (List.replicate count [b0, b1, b2, b3]).flatten
  | alpha {size : Nat} {spelled : Bytes} {shared : UInt8} {pixels : List (UInt8 × UInt8 × UInt8)}
      (header : Spelling ⟨.alpha, pixels.length, size⟩ spelled) :
      Means (spelled ++ shared :: pixels.flatMap fun (b1, b2, b3) => [b1, b2, b3])
        (pixels.flatMap fun (b1, b2, b3) => [shared, b3, b2, b1])

/-- A complete token. -/
structure Chunk where
  stored : Bytes
  shown : Bytes
  means : Means stored shown

/-- The stream unpacks to the output: the magic number, the length of the output, and chunks. The rest
behind the chunks is anything, and no fewer chunks reach the length. -/
def Denotes (stream output : Bytes) : Prop :=
  ∃ (b0 b1 b2 b3 : UInt8) (chunks : List Chunk) (rest : Bytes),
    stream = [0x52, 0x4C, 0x45, 0x2E, b0, b1, b2, b3] ++ (chunks.flatMap Chunk.stored ++ rest) ∧
    chunks.flatMap Chunk.stored ++ rest ≠ [] ∧
    b0.toNat + 256 * b1.toNat + 65536 * b2.toNat + 16777216 * b3.toNat = output.length ∧
    chunks.flatMap Chunk.shown = output ∧
    ∀ k < chunks.length, ((chunks.take k).flatMap Chunk.shown).length < output.length

/-! ## One token -/

theorem triplesOnto_flatMap (seen pixels : List (UInt8 × UInt8 × UInt8)) :
    Token.triplesOnto seen (pixels.flatMap fun (b1, b2, b3) => [b1, b2, b3]) =
      seen.reverse ++ pixels := by
  induction pixels generalizing seen with
  | nil => simp [Token.triplesOnto]
  | cons pixel pixels ih =>
    obtain ⟨b1, b2, b3⟩ := pixel
    rw [List.flatMap_cons, List.cons_append, List.cons_append, List.cons_append, List.nil_append,
      Token.triplesOnto, ih, List.reverse_cons, List.append_assoc, List.singleton_append]

theorem triples_flatMap (pixels : List (UInt8 × UInt8 × UInt8)) :
    Token.triples (pixels.flatMap fun (b1, b2, b3) => [b1, b2, b3]) = pixels :=
  triplesOnto_flatMap [] pixels

theorem exists_triples {count : Nat} {bytes : Bytes} (h : bytes.length = 3 * count) :
    ∃ pixels : List (UInt8 × UInt8 × UInt8), pixels.length = count ∧
      bytes = pixels.flatMap fun (b1, b2, b3) => [b1, b2, b3] := by
  induction count generalizing bytes with
  | zero => exact ⟨[], rfl, List.length_eq_zero_iff.1 h⟩
  | succ count ih =>
    match bytes, h with
    | b1 :: b2 :: b3 :: rest, h =>
      simp only [List.length_cons] at h
      obtain ⟨pixels, hcount, hrest⟩ := ih (show rest.length = 3 * count by omega)
      refine ⟨(b1, b2, b3) :: pixels, by rw [List.length_cons, hcount], ?_⟩
      rw [List.flatMap_cons, ← hrest]
      rfl
    | [], h => simp only [List.length_nil] at h; omega
    | [_], h => simp only [List.length_cons, List.length_nil] at h; omega
    | [_, _], h => simp only [List.length_cons, List.length_nil] at h; omega

theorem exists_shared_triples {count : Nat} {payload : Bytes} (h : payload.length = 1 + 3 * count) :
    ∃ (shared : UInt8) (pixels : List (UInt8 × UInt8 × UInt8)), pixels.length = count ∧
      payload = shared :: pixels.flatMap fun (b1, b2, b3) => [b1, b2, b3] := by
  cases payload with
  | nil =>
    rw [List.length_nil] at h
    omega
  | cons shared more =>
    rw [List.length_cons] at h
    obtain ⟨pixels, hcount, rfl⟩ := exists_triples (show more.length = 3 * count by omega)
    exact ⟨shared, pixels, hcount, rfl⟩

theorem means_of_payload {header : Header} {spelled payload : Bytes} (hspelled : Spelling header spelled)
    (hpayload : payload.length = header.payloadSize) :
    Means (spelled ++ payload) (Token.ofPayload header payload).expand := by
  obtain ⟨kind, length, size⟩ := header
  cases kind with
  | literal =>
    simp only [Header.payloadSize] at hpayload
    subst hpayload
    exact .literal hspelled
  | byte =>
    obtain ⟨value, rfl⟩ := List.length_eq_one_iff.1 hpayload
    exact .byte hspelled
  | word =>
    match payload, hpayload with
    | [b0, b1, b2, b3], _ => exact .word hspelled
  | alpha =>
    obtain ⟨shared, pixels, rfl, rfl⟩ := exists_shared_triples hpayload
    have hmeans := @Means.alpha _ _ shared _ hspelled
    simpa [Token.ofPayload, Token.expand, triples_flatMap] using hmeans

theorem Means.exists_payload {stored shown : Bytes} (h : Means stored shown) :
    ∃ header spelled payload, Spelling header spelled ∧ stored = spelled ++ payload ∧
      payload.length = header.payloadSize ∧ shown = (Token.ofPayload header payload).expand := by
  cases h with
  | literal hspelled => exact ⟨_, _, _, hspelled, rfl, rfl, rfl⟩
  | byte hspelled => exact ⟨_, _, _, hspelled, rfl, rfl, rfl⟩
  | word hspelled => exact ⟨_, _, _, hspelled, rfl, rfl, rfl⟩
  | alpha hspelled =>
    refine ⟨_, _, _, hspelled, rfl, ?_, ?_⟩
    · simp [Header.payloadSize, List.map_const', Nat.mul_comm, Nat.add_comm]
    · simp [Token.ofPayload, Token.expand, triples_flatMap]

theorem length_expand_ofPayload {header : Header} {payload : Bytes}
    (hpayload : payload.length = header.payloadSize) :
    (Token.ofPayload header payload).expand.length = header.outputSize := by
  obtain ⟨kind, length, size⟩ := header
  cases kind with
  | literal => exact hpayload
  | byte => exact List.length_replicate
  | word => simp [Token.ofPayload, Token.expand, Header.outputSize, Nat.mul_comm]
  | alpha =>
    obtain ⟨shared, pixels, rfl, rfl⟩ := exists_shared_triples hpayload
    simp [Token.ofPayload, Token.expand, Header.outputSize, triples_flatMap, List.map_const',
      Nat.mul_comm]

end BootLogo.Runs
