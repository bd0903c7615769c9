import BootLogo.Proofs.Runs.Decoding
import BootLogo.Proofs.Runs.Encoding

/-!
# Packing and unpacking

The stream that the packer writes is unpacked to the data, and all of it is used: `decode_encode`. The
tokens of the packer are chunks that each stand for something, so no fewer of them reach the length of
the data.
-/

namespace BootLogo.Runs

theorem toNat_ofWord {value : Nat} (h : value < wordLimit) :
    (UInt8.ofNat value).toNat + 256 * (UInt8.ofNat (value / 256)).toNat +
      65536 * (UInt8.ofNat (value / 65536)).toNat +
      16777216 * (UInt8.ofNat (value / 16777216)).toNat = value := by
  simp only [wordLimit] at h
  simp only [UInt8.toNat_ofNat']
  omega

/-- What stands for something is longer than what any shorter front of it stands for. -/
theorem length_take_lt {chunks : List Chunk} (hshows : ∀ chunk ∈ chunks, chunk.shown ≠ []) :
    ∀ k < chunks.length,
      ((chunks.take k).flatMap Chunk.shown).length < (chunks.flatMap Chunk.shown).length := by
  intro k hk
  have hmem : chunks[k] ∈ chunks := List.getElem_mem hk
  have hpos := List.length_pos_iff.2 (hshows _ hmem)
  have hsplit : chunks.flatMap Chunk.shown =
      (chunks.take k).flatMap Chunk.shown ++ (chunks[k].shown ++
        (chunks.drop (k + 1)).flatMap Chunk.shown) := by
    rw [← List.flatMap_cons, List.getElem_cons_drop, ← List.flatMap_append, List.take_append_drop]
  rw [hsplit, List.length_append, List.length_append]
  omega

theorem spell_ne_nil (token : Token) : token.spell ≠ [] := by
  rw [Token.spell, Header.shortest, List.cons_append]
  exact List.cons_ne_nil _ _

theorem spelled_tokens_ne_nil {data : Bytes} (hne : data ≠ []) :
    (tokens data).flatMap Token.spell ≠ [] := by
  intro hnil
  apply hne
  cases htokens : tokens data with
  | nil =>
    have hexpand := (tokens_cover data).2
    rw [htokens] at hexpand
    exact hexpand.symm
  | cons token list =>
    rw [htokens, List.flatMap_cons, List.append_eq_nil_iff] at hnil
    exact absurd hnil.1 (spell_ne_nil token)

theorem declaredLength_stream {data : Bytes} (hne : data ≠ []) (hlimit : data.length < wordLimit) :
    declaredLength (stream data) = .ok data.length :=
  declaredLength_eq_ok_iff.2 ⟨_, _, _, _, _, stream_eq data, spelled_tokens_ne_nil hne,
    toNat_ofWord hlimit⟩

theorem decode_stream {data target : Bytes} (hne : data ≠ []) (hlimit : data.length < wordLimit)
    (hroom : data.length ≤ target.length) :
    (decode (stream data) target).result = .ok data.length ∧
      (decode (stream data) target).buffer = data ++ target.drop data.length ∧
      (decode (stream data) target).consumed = (stream data).length := by
  obtain ⟨hfit, hexpand⟩ := tokens_cover data
  obtain ⟨chunks, hstored, hshown, hshows⟩ := Token.exists_chunks hfit
  have hdata : chunks.flatMap Chunk.shown = data := by rw [hshown, hexpand]
  have hbody : (stream data).drop frontSize = chunks.flatMap Chunk.stored ++ [] := by
    rw [stream_eq, hstored, List.append_nil]
    rfl
  obtain ⟨hresult, hbuffer, hconsumed⟩ := decode_complete (declaredLength_stream hne hlimit) hbody
    hdata (by rw [← hdata]; exact length_take_lt hshows) hroom
  refine ⟨hresult, hbuffer, ?_⟩
  rw [hconsumed, hstored, stream_eq, List.length_append]
  rfl

/-- **What is packed into a buffer is unpacked again**, into every buffer with room: the declared length is
the data's, the output is the data, the stream is used up to its last byte, and nothing behind the output
changes. -/
theorem decode_encode {data buffer : Bytes} {size : Nat} (h : (encode data buffer).result = .ok size) :
    let packed := (encode data buffer).buffer.take size
    declaredLength packed = .ok data.length ∧
      ∀ target : Bytes, data.length ≤ target.length →
        (decode packed target).bytes = .ok data ∧
        (decode packed target).buffer = data ++ target.drop data.length ∧
        (decode packed target).consumed = size := by
  intro packed
  obtain ⟨hne, hlimit, hsize, hbuffer⟩ := encode_eq_ok h
  have hpacked : packed = stream data := by
    show (encode data buffer).buffer.take size = stream data
    rw [hbuffer, hsize, List.take_left]
  rw [hpacked]
  refine ⟨declaredLength_stream hne hlimit, fun target hroom => ?_⟩
  obtain ⟨hresult, houtput, hconsumed⟩ := decode_stream hne hlimit hroom
  refine ⟨?_, houtput, by rw [hconsumed, hsize]⟩
  rw [Decoding.bytes, hresult, houtput]
  simp [Except.map]

/-- A literal, a run of one byte, a run of one word and a literal again. -/
def assorted : Bytes := [1, 7, 7, 7, 7, 1, 2, 3, 4, 1, 2, 3, 4, 1, 2, 3, 4, 9]

theorem decode_encode_assorted :
    (encode assorted (List.replicate 40 0xEE)).result = .ok 19 ∧
      (decode ((encode assorted (List.replicate 40 0xEE)).buffer.take 19)
        (List.replicate 20 0)).bytes = .ok assorted := by
  have h : (encode assorted (List.replicate 40 0xEE)).result = .ok 19 := by cbv
  exact ⟨h, ((decode_encode h).2 (List.replicate 20 0) (by decide)).1⟩

end BootLogo.Runs
