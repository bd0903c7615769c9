import BootLogo.Proofs.Runs.Failing

/-!
# How much of a stream is looked at

A stream that unpacks is used up to some place. A shorter front of it always ends inside one of the chunks in
front of that place, and so it is noticed; what stands behind that place does not matter.

* `exists_cut_chunk`: a shorter front is some whole chunks and a part of the next one.
* `CutShort.of_front`: such a part is cut short.
* `decode_reads_consumed`: every shorter front is found to be one, and everything else may follow.
-/

namespace BootLogo.Runs

variable {stream other buffer target : Bytes} {declared : Nat}

/-! ## Cut chunks -/

theorem Spelling.ne_nil {header : Header} {spelled : Bytes} (h : Spelling header spelled) :
    spelled ≠ [] := by
  cases h with
  | short _ => exact List.cons_ne_nil _ _
  | long _ _ => exact List.cons_ne_nil _ _

theorem Chunk.stored_ne_nil (chunk : Chunk) : chunk.stored ≠ [] := by
  obtain ⟨header, spelled, payload, hspelled, hstored, -, -⟩ := chunk.means.exists_payload
  rw [hstored]
  exact fun hnil => hspelled.ne_nil (List.append_eq_nil_iff.1 hnil).1

theorem CutShort.of_front {chunk : Chunk} {front : Bytes} {room : Nat} (hfront : front <+: chunk.stored)
    (hshort : front.length < chunk.stored.length) (hfits : chunk.shown.length ≤ room) :
    CutShort room front := by
  obtain ⟨header, spelled, payload, hspelled, hstored, hpayload, hshown⟩ := chunk.means.exists_payload
  rw [hshown, length_expand_ofPayload hpayload] at hfits
  have hparse : Header.parse? chunk.stored = some header :=
    parse?_eq_some_iff.2 ⟨spelled, payload, hstored, hspelled⟩
  by_cases hwhole : ∃ found start after, Spelling found start ∧ front = start ++ after
  · obtain ⟨found, start, after, hstart, rfl⟩ := hwhole
    obtain ⟨rest, hrest⟩ := hfront
    -- the header that is there is the header of the whole chunk
    have hfound : Header.parse? chunk.stored = some found :=
      parse?_eq_some_iff.2 ⟨start, after ++ rest, by rw [← hrest, List.append_assoc], hstart⟩
    obtain rfl : header = found := Option.some.inj (hparse.symm.trans hfound)
    have hsize : start.length = spelled.length := hstart.size_eq.symm.trans hspelled.size_eq
    refine .payload hstart hfits ?_
    rw [hstored, List.length_append, List.length_append] at hshort
    omega
  · exact .header fun found start after hstart hsplit => hwhole ⟨found, start, after, hstart, hsplit⟩

theorem exists_cut_chunk {chunks : List Chunk} {count : Nat}
    (h : count < (chunks.flatMap Chunk.stored).length) :
    ∃ before chunk after front, chunks = before ++ chunk :: after ∧
      (chunks.flatMap Chunk.stored).take count = before.flatMap Chunk.stored ++ front ∧
      front <+: chunk.stored ∧ front.length < chunk.stored.length := by
  induction chunks generalizing count with
  | nil => exact absurd h (Nat.not_lt_zero count)
  | cons chunk chunks ih =>
    rw [List.flatMap_cons, List.length_append] at h
    rw [List.flatMap_cons]
    by_cases hinside : count < chunk.stored.length
    · refine ⟨[], chunk, chunks, chunk.stored.take count, rfl, ?_, List.take_prefix _ _, ?_⟩
      · rw [List.take_append_of_le_length (Nat.le_of_lt hinside)]
        rfl
      · rw [List.length_take]
        omega
    · obtain ⟨before, cut, after, front, rfl, htake, hfront, hshort⟩ :=
        @ih (count - chunk.stored.length) (by omega)
      refine ⟨chunk :: before, cut, after, front, rfl, ?_, hfront, hshort⟩
      rw [List.take_append, List.take_of_length_le (Nat.not_lt.1 hinside), htake, List.flatMap_cons,
        List.append_assoc]

/-! ## Other streams -/

theorem Declares.congr (h : Declares stream declared) (hsame : stream.take frontSize = other.take frontSize)
    (hlong : frontSize < other.length) : Declares other declared := by
  refine ⟨hlong, ?_, ?_⟩
  · have hfour := congrArg (List.take 4) hsame
    simp only [List.take_take, frontSize, Nat.reduceLeDiff, Nat.min_eq_left] at hfour
    rw [← hfour, h.signature]
  · rw [← h.length]
    exact Bytes.word_congr hsame.symm (Nat.le_refl 8)

theorem Reaches.append {chunks : List Chunk} {rest : Bytes} (h : Reaches stream buffer declared chunks rest)
    (more : Bytes) : Reaches (stream ++ more) buffer declared chunks (rest ++ more) := by
  have hlong := h.declares.long
  refine ⟨h.declares.congr ?_ ?_, h.room, ?_, h.lacks⟩
  · rw [List.take_append_of_le_length (Nat.le_of_lt hlong)]
  · rw [List.length_append]
    omega
  · rw [List.drop_append_of_le_length (Nat.le_of_lt hlong), h.tokens, List.append_assoc]

theorem Overlong.append {room : Nat} {bytes : Bytes} (h : Overlong room bytes) (more : Bytes) :
    Overlong room (bytes ++ more) := by
  obtain ⟨header, spelled, after, hspelled, rfl, hover⟩ := h
  exact ⟨header, spelled, after ++ more, hspelled, List.append_assoc _ _ _, hover⟩

theorem decode_append_of_overrun {offset written : Nat}
    (h : (decode stream buffer).result = .error (.overrun offset written declared)) (more : Bytes) :
    (decode (stream ++ more) buffer).result = .error (.overrun offset written declared) ∧
      (decode (stream ++ more) buffer).buffer = (decode stream buffer).buffer := by
  have hfailure := failure_of_decode h
  generalize (decode stream buffer).buffer = after at hfailure
  cases hfailure with
  | overrun hreaches hover => exact decode_of_failure (.overrun (hreaches.append more) (hover.append more))

/-! ## Streams that unpack -/

/-- Unpacking has succeeded, and has used up the chunks. -/
structure Consumes (stream buffer : Bytes) (declared : Nat) (chunks : List Chunk) (rest : Bytes) :
    Prop where
  declares : Declares stream declared
  tokens : stream.drop frontSize = chunks.flatMap Chunk.stored ++ rest
  shown : (chunks.flatMap Chunk.shown).length = declared
  fewest : ∀ k < chunks.length, ((chunks.take k).flatMap Chunk.shown).length < declared
  consumed : (decode stream buffer).consumed = frontSize + (chunks.flatMap Chunk.stored).length
  bytes : (decode stream buffer).bytes = .ok (chunks.flatMap Chunk.shown)

theorem exists_consumes (h : (decode stream buffer).result = .ok declared) :
    ∃ chunks rest, Consumes stream buffer declared chunks rest := by
  obtain ⟨hfront, -, chunks, later, hsteps, hshown, hfewest, hdecode⟩ := decode_eq_ok h
  refine ⟨chunks, later.rest, declaredLength_eq_ok_iff_declares.1 hfront, hsteps.rest, hshown, hfewest,
    ?_, ?_⟩
  · rw [hdecode]
    exact hsteps.of_start.2.2
  · rw [Decoding.bytes, h, hdecode, Decoding.buffer_after hsteps, ← hshown]
    exact congrArg Except.ok List.take_left

namespace Consumes

variable {chunks : List Chunk} {rest : Bytes}

theorem length_eq (h : Consumes stream buffer declared chunks rest) :
    stream.length = frontSize + ((chunks.flatMap Chunk.stored).length + rest.length) := by
  have hlong := h.declares.long
  have htokens := congrArg List.length h.tokens
  rw [List.length_drop, List.length_append] at htokens
  omega

theorem decode_take (h : Consumes stream buffer declared chunks rest) {k : Nat}
    (hk : k < (decode stream buffer).consumed) (hlong : frontSize < k) (hroom : declared ≤ target.length) :
    ∃ offset written, (decode (stream.take k) target).result =
      .error (.truncated offset written declared) := by
  rw [h.consumed] at hk
  have hlength := h.length_eq
  have hcount : k - frontSize < (chunks.flatMap Chunk.stored).length := by omega
  obtain ⟨before, chunk, after, front, rfl, htake, hfront, hshort⟩ := exists_cut_chunk hcount
  have hsplit := h.shown
  simp only [List.flatMap_append, List.flatMap_cons, List.length_append] at hsplit
  have hlacks := h.fewest before.length (by simp)
  rw [List.take_left] at hlacks
  have hreaches : Reaches (stream.take k) target declared before front := by
    refine ⟨h.declares.congr ?_ ?_, hroom, ?_, hlacks⟩
    · rw [List.take_take, Nat.min_eq_left (Nat.le_of_lt hlong)]
    · rw [List.length_take]
      omega
    · rw [List.drop_take, h.tokens, List.take_append_of_le_length (Nat.le_of_lt hcount), htake]
  have hcut : CutShort (declared - (before.flatMap Chunk.shown).length) front :=
    .of_front hfront hshort (by omega)
  exact ⟨_, _, (decode_of_failure (.truncated hreaches hcut)).1⟩

/-- What has been used up unpacks to the same bytes, whatever comes after it. -/
theorem decode_take_append (h : Consumes stream buffer declared chunks rest) (hpos : 0 < declared)
    (more : Bytes) (hroom : declared ≤ target.length) :
    (decode (stream.take (decode stream buffer).consumed ++ more) target).bytes =
      (decode stream buffer).bytes := by
  have hlength := h.length_eq
  have hstored : 0 < (chunks.flatMap Chunk.stored).length := by
    cases chunks with
    | nil => exact absurd h.shown (Nat.ne_of_lt hpos)
    | cons chunk chunks =>
      have hchunk := List.length_pos_iff.2 chunk.stored_ne_nil
      rw [List.flatMap_cons, List.length_append]
      omega
  rw [h.bytes, h.consumed]
  generalize hused : stream.take (frontSize + (chunks.flatMap Chunk.stored).length) = used
  have husedLength : used.length = frontSize + (chunks.flatMap Chunk.stored).length := by
    rw [← hused, List.length_take]
    omega
  have hdeclares : Declares (used ++ more) declared := by
    refine h.declares.congr ?_ ?_
    · rw [List.take_append_of_le_length (by omega), ← hused, List.take_take, Nat.min_eq_left (by omega)]
    · rw [List.length_append]
      omega
  have htokens : (used ++ more).drop frontSize = chunks.flatMap Chunk.stored ++ more := by
    rw [List.drop_append_of_le_length (by omega), ← hused, List.drop_take, Nat.add_sub_cancel_left,
      h.tokens, List.take_left]
  have hshown := h.shown
  subst hshown
  obtain ⟨hresult, hbuffer, -⟩ := decode_complete (declaredLength_eq_ok_iff_declares.2 hdeclares) htokens
    rfl h.fewest hroom
  rw [Decoding.bytes, hresult, hbuffer]
  exact congrArg Except.ok List.take_left

end Consumes

/-- **A stream is looked at up to some place and no further.** Every shorter front of it is found to be one:
too short for a token, or truncated. Whatever follows that place, the output is the same. And a token that
overruns the declared length is found to do so, whatever follows the stream. -/
theorem decode_reads_consumed (stream buffer : Bytes) (declared : Nat) :
    let decoding := decode stream buffer
    (decoding.result = .ok declared → 0 < declared →
      decoding.consumed ≤ stream.length ∧
      ∀ target : Bytes, declared ≤ target.length →
        (∀ k < decoding.consumed,
          (k ≤ 8 → (decode (stream.take k) target).result = .error (.tooShort k)) ∧
          (8 < k → ∃ offset written,
            (decode (stream.take k) target).result = .error (.truncated offset written declared))) ∧
        ∀ more : Bytes, (decode (stream.take decoding.consumed ++ more) target).bytes = decoding.bytes) ∧
    ∀ offset written, decoding.result = .error (.overrun offset written declared) →
      ∀ more : Bytes,
        (decode (stream ++ more) buffer).result = .error (.overrun offset written declared) ∧
        (decode (stream ++ more) buffer).buffer = decoding.buffer := by
  intro decoding
  refine ⟨fun hok hpos => ?_, fun offset written hover more => decode_append_of_overrun hover more⟩
  obtain ⟨chunks, rest, h⟩ := exists_consumes hok
  have hinside : decoding.consumed ≤ stream.length := by
    have hlength := h.length_eq
    rw [show decoding.consumed = _ from h.consumed]
    omega
  refine ⟨hinside, fun target hroom => ⟨fun k hk => ⟨fun hshort => ?_, fun hlong => ?_⟩, fun more => ?_⟩⟩
  · have hlength : (stream.take k).length = k := List.length_take_of_le (by omega)
    have hfailure : Failure (stream.take k) target (.tooShort (stream.take k).length) target :=
      .tooShort (by rw [hlength]; exact hshort)
    rw [(decode_of_failure hfailure).1, hlength]
  · exact h.decode_take hk hlong hroom
  · exact h.decode_take_append hpos more hroom

/-- A stream without its last token and with another byte behind it, and a run that is too long with the byte
that it repeats. -/
theorem decode_reads_consumed_mixed :
    (decode mixed (List.replicate 12 0xEE)).consumed = 24 ∧
      (∃ offset written, (decode (mixed.take 19) (List.replicate 9 0)).result =
        .error (.truncated offset written 9)) ∧
      (decode (mixed.take 24 ++ [0x7F]) (List.replicate 9 0)).bytes = .ok [5, 1, 2, 3, 4, 9, 3, 2, 1] ∧
      (decode (overlong ++ [7]) (List.replicate 5 0xEE)).result = .error (.overrun 11 2 4) := by
  have hok : (decode mixed (List.replicate 12 0xEE)).result = .ok 9 := by cbv
  have hbytes : (decode mixed (List.replicate 12 0xEE)).bytes = .ok [5, 1, 2, 3, 4, 9, 3, 2, 1] := by cbv
  have hconsumed : (decode mixed (List.replicate 12 0xEE)).consumed = 24 := by cbv
  obtain ⟨-, hreads⟩ :=
    (decode_reads_consumed mixed (List.replicate 12 0xEE) 9).1 hok (by decide)
  obtain ⟨hfronts, hmore⟩ := hreads (List.replicate 9 0) (by decide)
  rw [hconsumed] at hfronts hmore
  exact ⟨hconsumed, (hfronts 19 (by decide)).2 (by decide), (hmore [0x7F]).trans hbytes,
    ((decode_reads_consumed overlong (List.replicate 5 0xEE) 4).2 11 2 decode_overlong.1 [7]).1⟩

end BootLogo.Runs
