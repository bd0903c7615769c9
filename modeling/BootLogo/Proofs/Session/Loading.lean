import BootLogo.Proofs.Bitmap.FetchOrder
import BootLogo.Proofs.Runs.RoundTrip
import BootLogo.Session

/-!
# Loading a logo

A blob is a bitmap, or a stream that unpacks to one. Either way the picture is made in place, where the
bitmap lies.

* `unpack_signed`, `unpack_stream`: the bitmap of either kind of blob.
* `load_congr`: of a signed blob only its bitmap is looked at, and the six bytes that tell its size.
* `load_eq_packed`: a bitmap and a stream of it are loaded alike.
-/

namespace BootLogo

open Bitmap (isSigned statedSize?)

/-! ## Signed blobs -/

namespace Bitmap

variable {bytes other : Bytes}

/-- How many bytes of a blob belong to its bitmap. -/
def usedSize (bytes : Bytes) : Nat := min bytes.length ((statedSize? bytes).getD bytes.length)

theorem take_usedSize : bytes.take ((statedSize? bytes).getD bytes.length) = bytes.take (usedSize bytes) := by
  rw [usedSize, Nat.min_comm, ← List.take_take, List.take_length]

theorem length_take_usedSize : (bytes.take (usedSize bytes)).length = usedSize bytes := by
  rw [List.length_take]
  exact Nat.min_eq_left (Nat.min_le_left _ _)

theorem usedSize_lt (hsigned : isSigned bytes = true) : usedSize bytes < wordLimit := by
  unfold usedSize statedSize?
  by_cases hlength : 6 ≤ bytes.length
  · rw [if_pos ⟨hlength, hsigned⟩]
    exact Nat.lt_of_le_of_lt (Nat.min_le_right _ _) (bytes.word_lt 2)
  · rw [if_neg fun h => hlength h.1]
    exact Nat.lt_of_le_of_lt (Nat.min_le_left _ _) (by simp only [wordLimit]; omega)

theorem statedSize?_congr (h : other.take 6 = bytes.take 6) (hlength : other.length = bytes.length) :
    isSigned other = isSigned bytes ∧ statedSize? other = statedSize? bytes := by
  have hsigned : isSigned other = isSigned bytes := by
    have htwo := congrArg (List.take 2) h
    rw [List.take_take, List.take_take] at htwo
    rw [isSigned, isSigned, show other.take 2 = bytes.take 2 from htwo]
  refine ⟨hsigned, ?_⟩
  rw [statedSize?, statedSize?, hsigned, hlength, Bytes.word_congr h (by decide)]

theorem not_isStream (hsigned : isSigned bytes = true) : Runs.isStream bytes = false := by
  obtain ⟨rest, rfl⟩ : ∃ rest, bytes = [0x42, 0x4D] ++ rest :=
    ⟨bytes.drop 2, by rw [← of_decide_eq_true hsigned, List.take_append_drop]⟩
  have hbyte : Bytes.byte ([0x42, 0x4D] ++ rest) 0 = 0x42 := rfl
  have hsecond : Bytes.byte ([0x42, 0x4D] ++ rest) 1 = 0x4D := rfl
  rw [Runs.isStream, decide_eq_false_iff_not]
  rintro ⟨-, hmagic⟩
  rw [Bytes.word, Bytes.half, hbyte, hsecond, Runs.magic] at hmagic
  omega

theorem length_bytes_interpret : (interpret bytes).bytes.length = bytes.length := by
  unfold interpret
  cases h : inspect bytes with
  | error error => rfl
  | ok info => exact length_fixed h

end Bitmap

theorem Runs.isStream_stream (data : Bytes) : isStream (stream data) = true := by
  have hmagic (rest : Bytes) : Bytes.word ([0x52, 0x4C, 0x45, 0x2E] ++ rest) 0 = magic :=
    Bytes.word_ofWord magic rest (by decide)
  rw [stream_eq, List.append_assoc]
  exact decide_eq_true ⟨by simp, hmagic _⟩

namespace Logo

variable {buffers : Buffers} {bitmap : Bytes}

/-! ## Unpacking -/

theorem place_signed {blob : Bytes} (hsigned : isSigned blob = true) : place blob = .blob := by
  rw [place, Bitmap.not_isStream hsigned]
  rfl

theorem place_stream (data : Bytes) : place (Runs.stream data) = .scratch := by
  rw [place, Runs.isStream_stream]
  rfl

theorem unpack_signed {blob : Bytes} (hsigned : isSigned blob = true) (spare : Bytes) :
    unpack ⟨blob, spare⟩ = ⟨.ok (blob.take (Bitmap.usedSize blob)), ⟨blob, spare⟩, []⟩ := by
  simp only [unpack, place_signed hsigned, Bitmap.take_usedSize]

theorem unpack_stream {data scratch : Bytes} (hne : data ≠ []) (hlimit : data.length < wordLimit)
    (hroom : data.length ≤ scratch.length) :
    (unpack ⟨Runs.stream data, scratch⟩).result = .ok data ∧
      (unpack ⟨Runs.stream data, scratch⟩).buffers =
        ⟨Runs.stream data, data ++ scratch.drop data.length⟩ := by
  obtain ⟨hresult, hbuffer, -⟩ := Runs.decode_stream hne hlimit hroom
  simp [unpack, place_stream, Runs.Decoding.bytes, hresult, hbuffer, Except.map]

theorem unpack_eq_ok (h : (unpack buffers).result = .ok bitmap) :
    (∃ rest, (unpack buffers).buffers.get (place buffers.blob) = bitmap ++ rest) ∧
      ((unpack buffers).buffers.get (place buffers.blob)).length =
        (buffers.get (place buffers.blob)).length := by
  unfold unpack at h ⊢
  cases hplace : place buffers.blob with
  | blob =>
    simp only [hplace] at h ⊢
    cases h
    exact ⟨⟨_, (List.take_append_drop _ _).symm⟩, trivial⟩
  | scratch =>
    simp only [hplace] at h ⊢
    unfold Runs.Decoding.bytes at h
    cases hresult : (Runs.decode buffers.blob buffers.scratch).result with
    | error error =>
      rw [hresult] at h
      cases h
    | ok declared =>
      obtain ⟨hroom, output, -, rfl, hbuffer⟩ := Runs.decode_sound hresult
      rw [hresult, hbuffer] at h
      simp only [Except.map, List.take_left, Except.ok.injEq] at h
      subst h
      simp only [Buffers.get, hbuffer]
      exact ⟨⟨_, rfl⟩, by rw [List.length_append, List.length_drop]; omega⟩

/-! ## Loading -/

theorem load_of_unpack (addresses : Addresses) (h : (unpack buffers).result = .ok bitmap) :
    (load addresses buffers).result.map Frame.image =
        ((Bitmap.interpret bitmap).result.map Prod.snd).mapError Error.bitmap ∧
      (load addresses buffers).buffers =
        (unpack buffers).buffers.write (place buffers.blob) (Bitmap.interpret bitmap).bytes := by
  unfold load interpret
  simp only [h]
  cases (Bitmap.interpret bitmap).result with
  | error error => exact ⟨rfl, trivial⟩
  | ok found => exact ⟨rfl, trivial⟩

theorem load_signed (addresses : Addresses) {blob : Bytes} (hsigned : isSigned blob = true) (spare : Bytes) :
    let used := Bitmap.usedSize blob
    let interpretation := Bitmap.interpret (blob.take used)
    (load addresses ⟨blob, spare⟩).result.map Frame.image =
        (interpretation.result.map Prod.snd).mapError Error.bitmap ∧
      (load addresses ⟨blob, spare⟩).buffers = ⟨interpretation.bytes ++ blob.drop used, spare⟩ := by
  intro used interpretation
  have hunpack := unpack_signed hsigned spare
  obtain ⟨hresult, hbuffers⟩ :=
    load_of_unpack addresses (congrArg Unpacked.result hunpack)
  refine ⟨hresult, hbuffers.trans ?_⟩
  rw [hunpack, place_signed hsigned]
  have hlength : interpretation.bytes.length = used := by
    rw [Bitmap.length_bytes_interpret, Bitmap.length_take_usedSize]
  simp only [Buffers.write, Bytes.overwrite]
  rw [hlength]

theorem load_stream (addresses : Addresses) {data scratch : Bytes} (hne : data ≠ [])
    (hlimit : data.length < wordLimit) (hroom : data.length ≤ scratch.length) :
    let interpretation := Bitmap.interpret data
    (load addresses ⟨Runs.stream data, scratch⟩).result.map Frame.image =
        (interpretation.result.map Prod.snd).mapError Error.bitmap ∧
      (load addresses ⟨Runs.stream data, scratch⟩).buffers =
        ⟨Runs.stream data, interpretation.bytes ++ scratch.drop data.length⟩ := by
  intro interpretation
  obtain ⟨hunpack, hunpacked⟩ := unpack_stream hne hlimit hroom
  obtain ⟨hresult, hbuffers⟩ := load_of_unpack addresses hunpack
  refine ⟨hresult, hbuffers.trans ?_⟩
  rw [hunpacked, place_stream]
  have hlength : interpretation.bytes.length = data.length := Bitmap.length_bytes_interpret
  simp only [Buffers.write, Bytes.overwrite]
  rw [hlength, List.drop_left]

/-- Of a signed blob the bitmap is looked at, and the first six bytes, which tell its size. -/
theorem load_congr (addresses : Addresses) {blob other : Bytes} (spare : Bytes)
    (hsigned : isSigned blob = true) (hlength : other.length = blob.length)
    (hfront : other.take (max (Bitmap.usedSize blob) 6) = blob.take (max (Bitmap.usedSize blob) 6)) :
    (load addresses ⟨other, spare⟩).result = (load addresses ⟨blob, spare⟩).result ∧
      (load addresses ⟨other, spare⟩).log = (load addresses ⟨blob, spare⟩).log := by
  have hprobe {count : Nat} (hcount : count ≤ max (Bitmap.usedSize blob) 6) :
      other.take count = blob.take count := by
    have htake := congrArg (List.take count) hfront
    rwa [List.take_take, List.take_take, Nat.min_eq_left hcount] at htake
  obtain ⟨hotherSigned, hstated⟩ :=
    Bitmap.statedSize?_congr (hprobe (Nat.le_max_right _ 6)) hlength
  rw [hsigned] at hotherSigned
  have hused : Bitmap.usedSize other = Bitmap.usedSize blob := by
    rw [Bitmap.usedSize, Bitmap.usedSize, hstated, hlength]
  have hbitmap : other.take (Bitmap.usedSize other) = blob.take (Bitmap.usedSize blob) := by
    rw [hused]
    exact hprobe (Nat.le_max_left _ 6)
  simp only [load, unpack_signed hotherSigned, unpack_signed hsigned, place_signed hotherSigned,
    place_signed hsigned, hbitmap]
  exact ⟨rfl, rfl⟩

/-- **A bitmap is loaded as a stream of it is**, and behind its stated size nothing is changed; but for the
six bytes that tell the size, nothing there is looked at either. -/
theorem load_eq_packed (blob spare : Bytes) (hsigned : isSigned blob = true)
    (hused : 1 ≤ Bitmap.usedSize blob) :
    let used := Bitmap.usedSize blob
    let bitmap := blob.take used
    (∀ buffer : Bytes, (Runs.stream bitmap).length ≤ buffer.length →
      (Runs.encode bitmap buffer).result = .ok (Runs.stream bitmap).length) ∧
    (∀ (addresses other : Addresses) (buffer scratch : Bytes) (size : Nat),
      (Runs.encode bitmap buffer).result = .ok size → used ≤ scratch.length →
        let packed := (Runs.encode bitmap buffer).buffer.take size
        let raw := load addresses ⟨blob, spare⟩
        let unpacked := load other ⟨packed, scratch⟩
        raw.result.map Frame.image = unpacked.result.map Frame.image ∧
        raw.buffers.blob.drop used = blob.drop used ∧ raw.buffers.scratch = spare ∧
        unpacked.buffers.blob = packed ∧ unpacked.buffers.scratch.drop used = scratch.drop used) ∧
    ∀ (addresses : Addresses) (other : Bytes), other.length = blob.length →
      other.take (max used 6) = blob.take (max used 6) →
        (load addresses ⟨other, spare⟩).result = (load addresses ⟨blob, spare⟩).result ∧
        (load addresses ⟨other, spare⟩).log = (load addresses ⟨blob, spare⟩).log := by
  intro used bitmap
  have hlength : bitmap.length = used := Bitmap.length_take_usedSize
  have hne : bitmap ≠ [] := List.ne_nil_of_length_pos (by omega)
  have hlimit : bitmap.length < wordLimit := hlength ▸ Bitmap.usedSize_lt hsigned
  have hinterpret : (Bitmap.interpret bitmap).bytes.length = used :=
    Bitmap.length_bytes_interpret.trans hlength
  refine ⟨fun buffer hroom => Runs.encode_of_room hne hlimit hroom, ?_,
    fun addresses other => load_congr addresses spare hsigned⟩
  intro addresses other buffer scratch size hsize hroom packed raw unpacked
  obtain ⟨-, -, rfl, hbuffer⟩ := Runs.encode_eq_ok hsize
  have hpacked : packed = Runs.stream bitmap := by
    show (Runs.encode bitmap buffer).buffer.take _ = _
    rw [hbuffer, List.take_left]
  obtain ⟨hraw, hrawBuffers⟩ := load_signed addresses hsigned spare
  obtain ⟨hunpacked, hunpackedBuffers⟩ := load_stream other hne hlimit (hlength ▸ hroom)
  rw [← hpacked] at hunpacked hunpackedBuffers
  refine ⟨hraw.trans hunpacked.symm, ?_, ?_, ?_, ?_⟩
  · rw [hrawBuffers, List.drop_left' hinterpret]
  · rw [hrawBuffers]
  · rw [hunpackedBuffers]
  · rw [hunpackedBuffers, hlength, List.drop_left' hinterpret]

/-- A bitmap with three bytes behind it. -/
def trailed : Bytes := Bitmap.checkeredUp ++ [1, 2, 3]

theorem load_eq_packed_trailed :
    let packed := (Runs.encode (trailed.take 62) (List.replicate 50 0)).buffer.take 46
    let raw := load ⟨0, 0x100⟩ ⟨trailed, []⟩
    let unpacked := load ⟨0, 0x100⟩ ⟨packed, List.replicate 64 0xEE⟩
    raw.result.map Frame.image = unpacked.result.map Frame.image ∧
      raw.buffers.blob.drop 62 = [1, 2, 3] ∧ unpacked.buffers.scratch.drop 62 = [0xEE, 0xEE] := by
  have hused : Bitmap.usedSize trailed = 62 := rfl
  have hencode : (Runs.encode (trailed.take 62) (List.replicate 50 0)).result = .ok 46 := by cbv
  obtain ⟨-, hsame, -⟩ := load_eq_packed trailed [] rfl (by decide)
  rw [hused] at hsame
  obtain ⟨himage, hblob, -, -, hscratch⟩ :=
    hsame ⟨0, 0x100⟩ ⟨0, 0x100⟩ _ (List.replicate 64 0xEE) 46 hencode (by decide)
  exact ⟨himage, hblob, hscratch⟩

/-- Two blobs that agree on the three bytes that the first states as its size. They are not loaded alike,
because the bytes of the stated size lie behind. -/
theorem load_looks_at_stated_size :
    let short : Bytes := [0x42, 0x4D, 3, 0, 0, 0]
    let other : Bytes := [0x42, 0x4D, 3, 1, 0, 0]
    isSigned short = true ∧ Bitmap.usedSize short = 3 ∧ other.length = short.length ∧
      other.take 3 = short.take 3 ∧
      (load ⟨0, 0⟩ ⟨short, []⟩).result = .error (.bitmap (.truncated 54 3)) ∧
      (load ⟨0, 0⟩ ⟨other, []⟩).result = .error (.bitmap (.truncated 54 6)) :=
  ⟨rfl, rfl, rfl, rfl, rfl, rfl⟩

end Logo

end BootLogo
