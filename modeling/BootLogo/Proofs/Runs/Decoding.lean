import BootLogo.Proofs.Runs.Meaning

/-!
# Unpacking follows the meaning

The decoder takes chunks off the front of a stream, one a step.

* `Progress.Follows`: one point of the unpacking comes after another by a list of chunks.
* `next_sound`, `next_complete`: a step that is applied is one chunk, and a chunk that fits is applied.
* `run_sound`, `run_complete`: all steps are the fewest chunks that reach the target. `run_follows`: chunks
  that do not reach it are applied too, whatever comes after them.
* `decode_bytes_eq_ok_iff`: unpacking succeeds exactly on the streams that denote something that fits.
-/

namespace BootLogo.Runs

/-! ## One step -/

namespace Progress

/-- `later` comes after `progress` by the chunks. -/
structure Follows (progress : Progress) (chunks : List Chunk) (later : Progress) : Prop where
  rest : progress.rest = chunks.flatMap Chunk.stored ++ later.rest
  output : later.output.toList = progress.output.toList ++ chunks.flatMap Chunk.shown
  offset : later.offset = progress.offset + (chunks.flatMap Chunk.stored).length

theorem Follows.refl (progress : Progress) : progress.Follows [] progress :=
  ⟨rfl, (List.append_nil _).symm, rfl⟩

theorem Follows.trans {progress middle later : Progress} {front back : List Chunk}
    (h1 : progress.Follows front middle) (h2 : middle.Follows back later) :
    progress.Follows (front ++ back) later := by
  refine ⟨?_, ?_, ?_⟩
  · rw [h1.rest, h2.rest, List.flatMap_append, List.append_assoc]
  · rw [h2.output, h1.output, List.flatMap_append, List.append_assoc]
  · rw [h2.offset, h1.offset, List.flatMap_append, List.length_append, Nat.add_assoc]

theorem Follows.size {progress later : Progress} {chunks : List Chunk}
    (h : progress.Follows chunks later) :
    later.output.size = progress.output.size + (chunks.flatMap Chunk.shown).length := by
  rw [← Array.length_toList, h.output, List.length_append, Array.length_toList]

theorem Follows.of_start {stream : Bytes} {later : Progress} {chunks : List Chunk}
    (h : (start stream).Follows chunks later) :
    later.output.toList = chunks.flatMap Chunk.shown ∧
      later.output.size = (chunks.flatMap Chunk.shown).length ∧
      later.offset = frontSize + (chunks.flatMap Chunk.stored).length :=
  ⟨h.output, h.size.trans (Nat.zero_add _), h.offset⟩

theorem next_sound {target : Nat} {progress later : Progress}
    (h : progress.next target = .applied later) :
    ∃ chunk : Chunk, progress.Follows [chunk] later ∧
      chunk.shown.length ≤ target - progress.output.size := by
  unfold next at h
  split at h
  · cases h
  · rename_i header hparse
    obtain ⟨spelled, after, hrest, hspelled⟩ := parse?_eq_some_iff.1 hparse
    simp only at h
    split at h
    · cases h
    · rename_i hfits
      split at h
      · cases h
      · rename_i payload rest hsplit
        rw [hrest, hspelled.size_eq, List.drop_left] at hsplit
        obtain ⟨hafter, hpayload⟩ := Bytes.split?_eq_some hsplit
        have hlength := length_expand_ofPayload hpayload
        refine ⟨⟨_, _, means_of_payload hspelled hpayload⟩, ?_, by rw [hlength]; omega⟩
        cases h
        refine ⟨?_, ?_, ?_⟩
        · simp [hrest, hafter]
        · simp
        · simp [hspelled.size_eq, hpayload, Nat.add_assoc]

theorem next_complete {target : Nat} {progress : Progress} {chunk : Chunk} {rest : Bytes}
    (hrest : progress.rest = chunk.stored ++ rest)
    (hfits : chunk.shown.length ≤ target - progress.output.size) :
    ∃ later, progress.next target = .applied later ∧ progress.Follows [chunk] later ∧
      later.rest = rest := by
  obtain ⟨stored, shown, hmeans⟩ := chunk
  obtain ⟨header, spelled, payload, hspelled, rfl, hpayload, rfl⟩ := hmeans.exists_payload
  have hparse : Header.parse? progress.rest = some header :=
    parse?_eq_some_iff.2 ⟨spelled, payload ++ rest, by simp [hrest], hspelled⟩
  have hsplit : Bytes.split? (progress.rest.drop header.size) header.payloadSize =
      some (payload, rest) := by
    rw [hrest, List.append_assoc, hspelled.size_eq, List.drop_left, ← hpayload, Bytes.split?_append]
  have hout : ¬ target - progress.output.size < header.outputSize := by
    rw [length_expand_ofPayload hpayload] at hfits
    omega
  have hnext : progress.next target = .applied
      { offset := progress.offset + header.size + header.payloadSize
        rest := rest
        output := progress.output ++ (Token.ofPayload header payload).expand
        headers := progress.headers.push (progress.offset, header) } := by
    simp only [next, hparse, hsplit, if_neg hout]
  refine ⟨_, hnext, ⟨?_, ?_, ?_⟩, rfl⟩
  · simp [hrest]
  · simp
  · simp [hspelled.size_eq, hpayload, Nat.add_assoc]

/-! ## All steps -/

/-- Steps up to a target are the fewest chunks that reach it, and they hit it. -/
theorem run_sound {target : Nat} {progress later : Progress} (hsize : progress.output.size ≤ target)
    (h : progress.run target = .applied later) :
    ∃ chunks, progress.Follows chunks later ∧ later.output.size = target ∧
      ∀ k < chunks.length,
        progress.output.size + ((chunks.take k).flatMap Chunk.shown).length < target := by
  fun_induction run target progress with
  | case1 progress hdone =>
    cases h
    exact ⟨[], .refl _, by omega, fun k hk => absurd hk (Nat.not_lt_zero k)⟩
  | case2 progress hmore middle hnext ih =>
    obtain ⟨chunk, hstep, hfits⟩ := next_sound hnext
    have hmiddle := hstep.size
    rw [List.flatMap_singleton] at hmiddle
    obtain ⟨chunks, hsteps, htarget, hfewest⟩ := ih (by omega) h
    refine ⟨chunk :: chunks, hstep.trans hsteps, htarget, fun k hk => ?_⟩
    cases k with
    | zero =>
      rw [List.take_zero, List.flatMap_nil, List.length_nil]
      omega
    | succ k =>
      have hrest := hfewest k (by simpa using hk)
      rw [List.take_succ_cons, List.flatMap_cons, List.length_append]
      omega
  | case3 => cases h
  | case4 => cases h

theorem run_eq (target : Nat) (progress : Progress) :
    progress.run target =
      if target ≤ progress.output.size then .applied progress
      else
        match progress.next target with
        | .applied later => later.run target
        | .cut stuck => .cut stuck
        | .overruns stuck => .overruns stuck := by
  rw [run]
  split
  · rfl
  · split
    · rename_i hnext
      rw [hnext]
    · rename_i hnext
      rw [hnext]
    · rename_i hnext
      rw [hnext]

theorem run_follows {target : Nat} {progress : Progress} {chunks : List Chunk} {rest : Bytes}
    (hrest : progress.rest = chunks.flatMap Chunk.stored ++ rest)
    (hfits : progress.output.size + (chunks.flatMap Chunk.shown).length ≤ target)
    (hfewest : ∀ k < chunks.length,
      progress.output.size + ((chunks.take k).flatMap Chunk.shown).length < target) :
    ∃ later, progress.run target = later.run target ∧ progress.Follows chunks later ∧
      later.rest = rest := by
  induction chunks generalizing progress with
  | nil => exact ⟨progress, rfl, .refl progress, by simpa using hrest⟩
  | cons chunk chunks ih =>
    rw [List.flatMap_cons, List.append_assoc] at hrest
    rw [List.flatMap_cons, List.length_append] at hfits
    have hmore := hfewest 0 (Nat.zero_lt_succ _)
    rw [List.take_zero, List.flatMap_nil, List.length_nil] at hmore
    obtain ⟨middle, hnext, hstep, hmiddle⟩ := next_complete hrest
      (show chunk.shown.length ≤ target - progress.output.size by omega)
    have hsize := hstep.size
    rw [List.flatMap_singleton] at hsize
    obtain ⟨later, hrun, hsteps, hlast⟩ := ih hmiddle (by omega) fun k hk => by
      have hfewer := hfewest (k + 1) (Nat.succ_lt_succ hk)
      rw [List.take_succ_cons, List.flatMap_cons, List.length_append] at hfewer
      omega
    refine ⟨later, ?_, hstep.trans hsteps, hlast⟩
    rw [run_eq, if_neg (by omega), hnext]
    exact hrun

theorem run_complete {target : Nat} {progress : Progress} {chunks : List Chunk} {rest : Bytes}
    (hrest : progress.rest = chunks.flatMap Chunk.stored ++ rest)
    (hhit : progress.output.size + (chunks.flatMap Chunk.shown).length = target)
    (hfewest : ∀ k < chunks.length,
      progress.output.size + ((chunks.take k).flatMap Chunk.shown).length < target) :
    ∃ later, progress.run target = .applied later ∧ progress.Follows chunks later ∧
      later.rest = rest := by
  obtain ⟨later, hrun, hsteps, hlast⟩ := run_follows hrest (Nat.le_of_eq hhit) hfewest
  have hsize := hsteps.size
  refine ⟨later, ?_, hsteps, hlast⟩
  rw [hrun, run_eq, if_pos (by omega)]

end Progress

/-! ## Whole streams -/

theorem declaredLength_eq_ok_iff {stream : Bytes} {declared : Nat} :
    declaredLength stream = .ok declared ↔
      ∃ (b0 b1 b2 b3 : UInt8) (body : Bytes),
        stream = [0x52, 0x4C, 0x45, 0x2E, b0, b1, b2, b3] ++ body ∧ body ≠ [] ∧
        b0.toNat + 256 * b1.toNat + 65536 * b2.toNat + 16777216 * b3.toNat = declared := by
  constructor
  · intro h
    unfold declaredLength at h
    split at h
    · cases h
    · rename_i hlong
      split at h
      · cases h
      · rename_i hmagic
        cases h
        obtain ⟨front, body, rfl, hfront⟩ : ∃ front body, stream = front ++ body ∧ front.length = 8 :=
          ⟨stream.take 8, stream.drop 8, (List.take_append_drop 8 stream).symm, by
            rw [List.length_take]
            simp only [frontSize] at hlong
            omega⟩
        match front, hfront with
        | [m0, m1, m2, m3, b0, b1, b2, b3], _ =>
          have h0 := m0.toNat_lt
          have h1 := m1.toNat_lt
          have h2 := m2.toNat_lt
          have h3 := m3.toNat_lt
          simp only [Bytes.word, Bytes.half, Bytes.byte, magic, List.cons_append, List.getD_cons_zero,
            List.getD_cons_succ, Nat.zero_add, ne_eq, Decidable.not_not] at hmagic
          obtain rfl : m0 = 0x52 := UInt8.toNat_inj.1 (by change m0.toNat = 82; omega)
          obtain rfl : m1 = 0x4C := UInt8.toNat_inj.1 (by change m1.toNat = 76; omega)
          obtain rfl : m2 = 0x45 := UInt8.toNat_inj.1 (by change m2.toNat = 69; omega)
          obtain rfl : m3 = 0x2E := UInt8.toNat_inj.1 (by change m3.toNat = 46; omega)
          refine ⟨b0, b1, b2, b3, body, rfl, ?_, ?_⟩
          · rintro rfl
            exact hlong (Nat.le_refl 8)
          · simp only [Bytes.word, Bytes.half, Bytes.byte, List.cons_append, List.getD_cons_zero,
              List.getD_cons_succ]
            omega
  · rintro ⟨b0, b1, b2, b3, body, rfl, hbody, rfl⟩
    have hlength := List.length_pos_iff.2 hbody
    unfold declaredLength
    rw [if_neg (by simp [frontSize]; omega), if_neg (by simp [Bytes.word, Bytes.half, Bytes.byte, magic])]
    simp only [Bytes.word, Bytes.half, Bytes.byte, List.cons_append, List.getD_cons_zero,
      List.getD_cons_succ]
    congr 1
    omega

/-- How far the stream was unpacked when the steps ended. -/
def Progress.Step.reached : Step → Progress
  | .applied progress | .cut progress | .overruns progress => progress

/-- What the last step says of a stream of the declared length. -/
def Progress.Step.result (declared : Nat) : Step → Except Error Nat
  | .applied _ => .ok declared
  | .cut stuck => .error (.truncated stuck.offset stuck.output.size declared)
  | .overruns stuck => .error (.overrun stuck.offset stuck.output.size declared)

theorem decode_of_badFront {stream buffer : Bytes} {error : Error}
    (h : declaredLength stream = .error error) : decode stream buffer = .refused error buffer := by
  rw [decode, h]

theorem decode_of_smallBuffer {stream buffer : Bytes} {declared : Nat}
    (hfront : declaredLength stream = .ok declared) (hsmall : buffer.length < declared) :
    decode stream buffer = .refused (.outputTooSmall declared buffer.length) buffer := by
  rw [decode, hfront]
  exact if_pos hsmall

theorem decode_of_room {stream buffer : Bytes} {declared : Nat}
    (hfront : declaredLength stream = .ok declared) (hroom : declared ≤ buffer.length) :
    let last := (Progress.start stream).run declared
    decode stream buffer = .after last.reached buffer (last.result declared) := by
  intro last
  have hdecode : decode stream buffer = match last with
      | .applied progress => .after progress buffer (.ok declared)
      | .cut progress =>
        .after progress buffer (.error (.truncated progress.offset progress.output.size declared))
      | .overruns progress =>
        .after progress buffer (.error (.overrun progress.offset progress.output.size declared)) := by
    rw [decode, hfront]
    exact if_neg (Nat.not_lt.2 hroom)
  rw [hdecode]
  cases last <;> rfl

theorem Decoding.buffer_after {stream buffer : Bytes} {chunks : List Chunk} {later : Progress}
    {result : Except Error Nat} (h : (Progress.start stream).Follows chunks later) :
    (Decoding.after later buffer result).buffer =
      chunks.flatMap Chunk.shown ++ buffer.drop (chunks.flatMap Chunk.shown).length := by
  rw [Decoding.after, h.of_start.1, Bytes.overwrite]

/-- A stream of which the fewest chunks that reach the declared length hit it is unpacked into every
buffer with room; exactly these chunks are used up. -/
theorem decode_complete {stream buffer output rest : Bytes} {chunks : List Chunk}
    (hfront : declaredLength stream = .ok output.length)
    (hbody : stream.drop frontSize = chunks.flatMap Chunk.stored ++ rest)
    (hshown : chunks.flatMap Chunk.shown = output)
    (hfewest : ∀ k < chunks.length,
      ((chunks.take k).flatMap Chunk.shown).length < output.length)
    (hroom : output.length ≤ buffer.length) :
    (decode stream buffer).result = .ok output.length ∧
      (decode stream buffer).buffer = output ++ buffer.drop output.length ∧
      (decode stream buffer).consumed = frontSize + (chunks.flatMap Chunk.stored).length := by
  obtain ⟨later, hrun, hsteps, -⟩ := @Progress.run_complete output.length
    (Progress.start stream) _ _ hbody (by simp [Progress.start, hshown])
    (by simpa [Progress.start] using hfewest)
  have hdecode : decode stream buffer = .after later buffer (.ok output.length) := by
    rw [decode_of_room hfront hroom, hrun]
    rfl
  rw [hdecode, Decoding.buffer_after hsteps, hshown]
  exact ⟨rfl, rfl, hsteps.offset⟩

theorem decode_eq_ok {stream buffer : Bytes} {declared : Nat}
    (h : (decode stream buffer).result = .ok declared) :
    declaredLength stream = .ok declared ∧ declared ≤ buffer.length ∧
      ∃ chunks later, (Progress.start stream).Follows chunks later ∧
        (chunks.flatMap Chunk.shown).length = declared ∧
        (∀ k < chunks.length, ((chunks.take k).flatMap Chunk.shown).length < declared) ∧
        decode stream buffer = .after later buffer (.ok declared) := by
  cases hfront : declaredLength stream with
  | error cause =>
    rw [decode_of_badFront hfront] at h
    cases h
  | ok target =>
    by_cases hroom : target ≤ buffer.length
    · rw [decode_of_room hfront hroom] at h ⊢
      cases hrun : (Progress.start stream).run target with
      | applied later =>
        rw [hrun] at h
        cases h
        obtain ⟨chunks, hsteps, hsize, hfewest⟩ := Progress.run_sound (Nat.zero_le _) hrun
        refine ⟨rfl, hroom, chunks, later, hsteps, hsteps.of_start.2.1.symm.trans hsize, ?_, rfl⟩
        simpa [Progress.start] using hfewest
      | cut stuck =>
        rw [hrun] at h
        cases h
      | overruns stuck =>
        rw [hrun] at h
        cases h
    · rw [decode_of_smallBuffer hfront (Nat.not_le.1 hroom)] at h
      cases h

theorem decode_sound {stream buffer : Bytes} {declared : Nat}
    (h : (decode stream buffer).result = .ok declared) :
    declared ≤ buffer.length ∧ ∃ output, Denotes stream output ∧ output.length = declared ∧
      (decode stream buffer).buffer = output ++ buffer.drop output.length := by
  obtain ⟨hfront, hroom, chunks, later, hsteps, hsize, hfewest, hdecode⟩ := decode_eq_ok h
  obtain ⟨b0, b1, b2, b3, body, rfl, hbody, hdeclared⟩ := declaredLength_eq_ok_iff.1 hfront
  have hrest : body = chunks.flatMap Chunk.stored ++ later.rest := hsteps.rest
  refine ⟨hroom, chunks.flatMap Chunk.shown, ?_, hsize, ?_⟩
  · exact ⟨b0, b1, b2, b3, chunks, later.rest, by rw [hrest], hrest ▸ hbody, hdeclared.trans hsize.symm,
      rfl, by rw [hsize]; exact hfewest⟩
  · rw [hdecode, Decoding.buffer_after hsteps]

/-- **Unpacking succeeds exactly on the streams that stand for something that fits the buffer**; the bytes
that are handed out are what the stream stands for, and nothing behind them changes. -/
theorem decode_bytes_eq_ok_iff (stream buffer output : Bytes) :
    ((decode stream buffer).bytes = .ok output ↔
      Denotes stream output ∧ output.length ≤ buffer.length) ∧
    ((decode stream buffer).bytes = .ok output →
      (decode stream buffer).buffer = output ++ buffer.drop output.length) := by
  have hsound : (decode stream buffer).bytes = .ok output →
      (Denotes stream output ∧ output.length ≤ buffer.length) ∧
        (decode stream buffer).buffer = output ++ buffer.drop output.length := by
    intro h
    unfold Decoding.bytes at h
    cases hresult : (decode stream buffer).result with
    | error error =>
      rw [hresult] at h
      cases h
    | ok declared =>
      obtain ⟨hroom, shown, hdenotes, rfl, hbuffer⟩ := decode_sound hresult
      rw [hresult, hbuffer] at h
      simp only [Except.map, List.take_left, Except.ok.injEq] at h
      subst h
      exact ⟨⟨hdenotes, hroom⟩, hbuffer⟩
  refine ⟨⟨fun h => (hsound h).1, ?_⟩, fun h => (hsound h).2⟩
  rintro ⟨⟨b0, b1, b2, b3, chunks, rest, hstream, hbody, hlength, hshown, hfewest⟩, hroom⟩
  obtain ⟨hresult, hbuffer, -⟩ := decode_complete
    (declaredLength_eq_ok_iff.2 ⟨b0, b1, b2, b3, _, hstream, hbody, hlength⟩)
    (by rw [hstream]; rfl) hshown hfewest hroom
  rw [Decoding.bytes, hresult, hbuffer]
  simp [Except.map]

/-- An empty literal with a header of four bytes, a run of a byte, a token that is both a word and alpha and
is read as a word, one alpha pixel, and a byte behind. -/
def mixed : Bytes :=
  [0x52, 0x4C, 0x45, 0x2E, 9, 0, 0, 0, 0x80, 0x80, 0x80, 0x80, 0x01, 5, 0x71, 1, 2, 3, 4, 0x51, 9, 1, 2,
    3, 0xFF]

theorem decode_mixed :
    (decode mixed (List.replicate 12 0xEE)).bytes = .ok [5, 1, 2, 3, 4, 9, 3, 2, 1] ∧
      Denotes mixed [5, 1, 2, 3, 4, 9, 3, 2, 1] ∧
      (decode mixed (List.replicate 12 0xEE)).buffer =
        [5, 1, 2, 3, 4, 9, 3, 2, 1] ++ [0xEE, 0xEE, 0xEE] := by
  have h : (decode mixed (List.replicate 12 0xEE)).bytes = .ok [5, 1, 2, 3, 4, 9, 3, 2, 1] := by cbv
  have hiff := decode_bytes_eq_ok_iff mixed (List.replicate 12 0xEE) [5, 1, 2, 3, 4, 9, 3, 2, 1]
  exact ⟨h, (hiff.1.1 h).1, hiff.2 h⟩

end BootLogo.Runs
