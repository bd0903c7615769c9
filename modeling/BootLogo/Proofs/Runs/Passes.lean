import BootLogo.Proofs.Runs.Consumed
import BootLogo.Proofs.Runs.Indexed

/-!
# Unpacking stays inside, and ends

What is written grows with a token only if the token writes something, and one of length zero does not. The
offset grows with every token, since every header has a byte, and it never leaves the stream: that bounds the
passes over tokens.

* `Progress.Inside`: where a point of the unpacking stands. One step keeps it and moves the offset.
* `Indexed.pass_eq`, `Indexed.loop_eq`, `indexed_decode_eq`: on places nothing is missing, for one token, for
  all of them, and for the whole.
* `Turn`: the points in front of the loop, with the passes that led there. `Turn.inside` says that no pass is
  for nothing, `Turn.exists_leaves` that the loop is left.
* `decode_stays_inside`: all of it.
-/

namespace BootLogo.Runs

variable {stream buffer view : Bytes} {declared limit count : Nat} {progress later : Progress}

/-! ## One token -/

namespace Progress

/-- Where a point of the unpacking stands in the stream, and that no more than was declared is written. -/
structure Inside (stream : Bytes) (declared : Nat) (progress : Progress) : Prop where
  front : frontSize ≤ progress.offset
  inside : progress.offset ≤ stream.length
  rest : progress.rest = stream.drop progress.offset
  fits : progress.output.size ≤ declared

theorem Inside.start (h : frontSize ≤ stream.length) : (start stream).Inside stream declared :=
  ⟨Nat.le_refl frontSize, h, rfl, Nat.zero_le declared⟩

theorem Inside.next (h : progress.Inside stream declared) (hnext : progress.next declared = .applied later) :
    later.Inside stream declared ∧ progress.offset < later.offset := by
  obtain ⟨chunk, hstep, hfits⟩ := next_sound hnext
  have hsize := hstep.size
  have hrest := hstep.rest
  have hoffset := hstep.offset
  rw [List.flatMap_singleton] at hsize hrest hoffset
  -- a token takes a byte at least, also if it writes nothing
  have hstored := List.length_pos_iff.2 chunk.stored_ne_nil
  have hlength := congrArg List.length hrest
  rw [h.rest, List.length_drop, List.length_append] at hlength
  have hfront := h.front
  have hinside := h.inside
  have hwritten := h.fits
  refine ⟨⟨by omega, by omega, ?_, by omega⟩, by omega⟩
  rw [hoffset, ← List.drop_drop, ← h.rest, hrest, List.drop_left]

theorem Inside.header_inside (h : progress.Inside stream declared) {header : Header}
    (hparse : Header.parse? progress.rest = some header) :
    progress.offset + header.size ≤ stream.length := by
  obtain ⟨spelled, after, hrest, hspelled⟩ := parse?_eq_some_iff.1 hparse
  have hlength := congrArg List.length hrest
  rw [h.rest, List.length_drop, List.length_append, ← hspelled.size_eq] at hlength
  have hinside := h.inside
  omega

end Progress

namespace Indexed

/-- The places of a point of the unpacking that has written to the front of `view`. -/
def Cursor.of (view : Bytes) (progress : Progress) : Cursor :=
  ⟨progress.offset, progress.output.size, view.overwrite progress.output.toList⟩

theorem Cursor.of_append (view : Bytes) (offset : Nat) (rest : Bytes) (output : Array UInt8) (more : Bytes)
    (headers : Array (Nat × Header)) :
    Cursor.of view ⟨offset, rest, output ++ more, headers⟩ =
      ⟨offset, output.size + more.length, view.overwrite (output.toList ++ more)⟩ := by
  rw [Cursor.of, ← Array.length_toList, Array.toList_appendList, List.length_append, Array.length_toList]

/-- What a step comes to on places. -/
def outcome (declared : Nat) (view : Bytes) : Progress.Step → Except Error Cursor
  | .applied later => .ok (.of view later)
  | .cut stuck => .error (.truncated stuck.offset stuck.output.size declared)
  | .overruns stuck => .error (.overrun stuck.offset stuck.output.size declared)

variable (hlimit : 2 ^ 32 ≤ limit) (hstream : stream.length + 2 ^ 27 ≤ limit) (hdeclared : declared < 2 ^ 32)
  (hview : view.length = declared)

include hlimit hstream hdeclared hview

/-- A pass over one token does what a step does, and nothing that it takes is missing. -/
theorem pass_eq (h : progress.Inside stream declared) :
    pass limit declared stream (.of view progress) =
      .ok (outcome declared view (progress.next declared)) := by
  have hfits := h.fits
  have hwritten : progress.output.toList.length = progress.output.size := Array.length_toList
  unfold pass
  dsimp only [Cursor.of]
  rw [Word.bind_eq (headerAt_eq (by omega) progress.offset), ← h.rest]
  unfold Progress.next
  cases hparse : Header.parse? progress.rest with
  | none => rfl
  | some header =>
    obtain ⟨hpayload, houtput⟩ := sizes_lt hparse
    have hheader := h.header_inside hparse
    have hdrop : progress.rest.drop header.size = stream.drop (progress.offset + header.size) := by
      rw [h.rest, List.drop_drop]
    dsimp only
    rw [Word.bind_eq (outputSize_eq (by omega)), ← Nat.cast_sub hfits,
      Word.bind_eq (Word.unsigned_eq (by omega))]
    by_cases hover : declared - progress.output.size < header.outputSize
    · rw [if_pos hover, if_pos hover]
      rfl
    · -- the header lies in the stream, so the payload ends below `stream.length + 2 ^ 27`
      rw [if_neg hover, if_neg hover, Word.bind_eq (Word.unsigned_eq (by omega)),
        Word.bind_eq (payloadSize_eq (by omega)), Word.bind_eq (Word.unsigned_eq (by omega)), hdrop,
        ← slice?_eq_split? hheader header.payloadSize]
      cases hslice : slice? stream (progress.offset + header.size)
          (progress.offset + header.size + header.payloadSize) with
      | none => rfl
      | some payload =>
        have hsource : payload.length = header.payloadSize := length_of_slice? hslice
        have hemit := @emit_eq limit header payload progress.output.toList view hsource (by omega) (by omega)
        rw [hwritten] at hemit
        dsimp only
        rw [Word.bind_eq hemit]
        simp only [Option.map_some, outcome, Cursor.of_append, length_expand_ofPayload hsource]
        rfl

theorem loop_eq {passes : Nat} (h : progress.Inside stream declared)
    (hpasses : stream.length ≤ progress.offset + passes) :
    let last := progress.run declared
    loop limit declared stream passes (.of view progress) =
      .ok (last.result declared, view.overwrite last.reached.output.toList) := by
  fun_induction Progress.run declared progress generalizing passes with
  | case1 progress hdone =>
    have hleft : ¬ (Cursor.of view progress).written < declared := Nat.not_lt.2 hdone
    unfold loop
    rw [if_neg hleft]
    rfl
  | case2 progress hlacks later hnext ih =>
    have hmore : (Cursor.of view progress).written < declared := Nat.not_le.1 hlacks
    obtain ⟨hlater, hmoved⟩ := h.next hnext
    have hinside := hlater.inside
    -- the offset has moved and is still in the stream, so a pass was left
    obtain ⟨passes, rfl⟩ : ∃ fewer, passes = fewer + 1 := ⟨passes - 1, by omega⟩
    unfold loop
    rw [if_pos hmore, Word.bind_eq (pass_eq hlimit hstream hdeclared hview h), hnext]
    exact ih hlater (by omega)
  | case3 progress hlacks stuck hnext | case4 progress hlacks stuck hnext =>
    have hmore : (Cursor.of view progress).written < declared := Nat.not_le.1 hlacks
    have hsame : stuck.output.toList = progress.output.toList :=
      (Progress.next_stops hnext fun _ => Progress.Step.noConfusion).1.output.trans (List.append_nil _)
    unfold loop
    rw [if_pos hmore, Word.bind_eq (pass_eq hlimit hstream hdeclared hview h), hnext]
    show _ = Except.ok (_, view.overwrite stuck.output.toList)
    rw [hsame]
    rfl

/-- Three empty literals take three passes, and two are not enough. -/
example : loop (2 ^ 64) 1 [0x52, 0x4C, 0x45, 0x2E, 1, 0, 0, 0, 0, 0, 0] 2 ⟨8, 0, [0xEE]⟩ =
    .error .endless := by cbv

end Indexed

/-! ## All tokens -/

/-- Unpacking `stream` into `buffer` is in front of its loop at `progress`, and has gone over `count` tokens. -/
inductive Turn (stream buffer : Bytes) (declared : Nat) : (count : Nat) → Progress → Prop where
  | first (front : declaredLength stream = .ok declared) (room : ¬ buffer.length < declared) :
      Turn stream buffer declared 0 (.start stream)
  | next {count : Nat} {progress later : Progress} (turn : Turn stream buffer declared count progress)
      (more : ¬ declared ≤ progress.output.size) (applied : progress.next declared = .applied later) :
      Turn stream buffer declared (count + 1) later

/-- The loop is left at `progress` with the step: no more is wanted, or the next token cannot be applied. -/
inductive Progress.Leaves (declared : Nat) (progress : Progress) : Step → Prop where
  | done (done : declared ≤ progress.output.size) : progress.Leaves declared (.applied progress)
  | stopped {step : Step} (more : ¬ declared ≤ progress.output.size)
      (next : progress.next declared = step) (stop : ∀ later, step ≠ .applied later) :
      progress.Leaves declared step

theorem declaredLength_lt (h : declaredLength stream = .ok declared) :
    frontSize < stream.length ∧ declared < 2 ^ 32 := by
  obtain ⟨hlong, -, hlength⟩ := declaredLength_eq_ok_iff_declares.1 h
  exact ⟨hlong, hlength ▸ Bytes.word_lt stream 4⟩

namespace Turn

theorem declares (h : Turn stream buffer declared count progress) :
    declaredLength stream = .ok declared ∧ declared ≤ buffer.length := by
  induction h with
  | first hfront hroom => exact ⟨hfront, Nat.not_lt.1 hroom⟩
  | next _ _ _ ih => exact ih

theorem inside (h : Turn stream buffer declared count progress) :
    progress.Inside stream declared ∧ count + frontSize ≤ progress.offset := by
  induction h with
  | first hfront _ =>
    exact ⟨.start (Nat.le_of_lt (declaredLength_lt hfront).1), Nat.le_of_eq (Nat.zero_add frontSize)⟩
  | next _ _ hnext ih =>
    obtain ⟨hinside, hcount⟩ := ih
    obtain ⟨hlater, hmoved⟩ := hinside.next hnext
    exact ⟨hlater, by omega⟩

theorem count_le (h : Turn stream buffer declared count progress) : count ≤ stream.length - frontSize := by
  obtain ⟨hinside, hcount⟩ := h.inside
  have hoffset := hinside.inside
  omega

theorem exists_leaves (h : Turn stream buffer declared count progress) :
    ∃ passes last, Turn stream buffer declared passes last ∧
      last.Leaves declared (progress.run declared) := by
  fun_induction Progress.run declared progress generalizing count with
  | case1 progress hdone => exact ⟨count, progress, h, .done hdone⟩
  | case2 progress hlacks later hnext ih => exact ih (h.next hlacks hnext)
  | case3 progress hlacks stuck hnext | case4 progress hlacks stuck hnext =>
    exact ⟨count, progress, h, .stopped hlacks hnext fun _ => Progress.Step.noConfusion⟩

end Turn

theorem Progress.Leaves.size_eq {step : Progress.Step} (h : progress.Leaves declared step) :
    step.reached.output.size = progress.output.size := by
  cases h with
  | done _ => rfl
  | stopped _ hnext hstop => exact (Progress.next_stops hnext hstop).1.size

theorem overwrite_take_append {buffer front : Bytes} (h : front.length ≤ declared) :
    Bytes.overwrite (buffer.take declared) front ++ buffer.drop declared = buffer.overwrite front := by
  obtain ⟨more, rfl⟩ := Nat.exists_eq_add_of_le h
  rw [Bytes.overwrite, Bytes.overwrite, List.append_assoc, List.drop_take, Nat.add_sub_cancel_left,
    ← List.drop_drop, List.take_append_drop]

theorem indexed_decode_eq (hlimit : 2 ^ 32 ≤ limit) (hstream : stream.length + 2 ^ 27 ≤ limit) :
    Indexed.decode limit stream buffer =
      .ok ((decode stream buffer).result, (decode stream buffer).buffer) := by
  unfold Indexed.decode
  cases hfront : declaredLength stream with
  | error error =>
    rw [decode_of_badFront hfront]
    rfl
  | ok declared =>
    obtain ⟨hlong, hdeclared⟩ := declaredLength_lt hfront
    dsimp only
    by_cases hsmall : buffer.length < declared
    · rw [if_pos hsmall, decode_of_smallBuffer hfront hsmall]
      rfl
    · have hroom := Nat.not_lt.1 hsmall
      have hview : (buffer.take declared).length = declared := List.length_take_of_le hroom
      have hslice : Indexed.slice buffer 0 declared = .ok (buffer.take declared) :=
        Indexed.slice_eq (Nat.zero_le declared) hroom
      have hloop := Indexed.loop_eq hlimit hstream hdeclared hview (.start (Nat.le_of_lt hlong))
        (Nat.le_of_eq (Nat.add_sub_of_le (Nat.le_of_lt hlong)).symm)
      rw [if_neg hsmall, Word.bind_eq (Word.unsigned_eq (by omega)), Word.bind_eq hslice]
      obtain ⟨count, last, hturn, hleaves⟩ := (Turn.first hfront hsmall).exists_leaves
      have hsize := hleaves.size_eq.trans_le hturn.inside.1.fits
      rw [← Array.length_toList] at hsize
      rw [decode_of_room hfront hroom]
      refine (Word.bind_eq hloop _).trans ?_
      exact congrArg (fun bytes => Except.ok (_, bytes)) (overwrite_take_append hsize)

/-- In words of four bits the place behind the third token is too large. -/
example : Indexed.decode 16 mixed (List.replicate 12 0xEE) = .error (.overflow 16 19) := by cbv

/-- **Unpacking stays inside the stream and the buffer, and ends.** On places, nothing that is taken is missing
and no number is too large; words of 64 bits do for every stream of fewer than 2 ^ 63 bytes. A token that was
gone over has moved the offset, also if it has written nothing, so there are no more passes than there are
bytes behind the front of the stream. -/
theorem decode_stays_inside (stream buffer : Bytes) :
    (∀ limit, 2 ^ 32 ≤ limit → stream.length + 2 ^ 27 ≤ limit →
      Indexed.decode limit stream buffer =
        .ok ((decode stream buffer).result, (decode stream buffer).buffer)) ∧
    (∀ declared count progress, Turn stream buffer declared count progress →
      (8 ≤ progress.offset ∧ progress.offset ≤ stream.length) ∧
      (progress.output.size ≤ declared ∧ declared ≤ buffer.length) ∧
      (progress.output.size < declared →
        (∀ limit, 2 ^ 32 ≤ limit → stream.length + 2 ^ 27 ≤ limit →
          Indexed.pass limit declared stream (.of (buffer.take declared) progress) =
            .ok (Indexed.outcome declared (buffer.take declared) (progress.next declared))) ∧
        (stream.length < 2 ^ 63 → ∀ header, Header.parse? progress.rest = some header →
          progress.offset + header.size + header.payloadSize < 2 ^ 64) ∧
        ∀ later, progress.next declared = .applied later →
          progress.offset + 1 ≤ later.offset ∧ count + 1 ≤ stream.length - 8)) ∧
    ∀ declared, declaredLength stream = .ok declared → declared ≤ buffer.length →
      ∃ count last step, Turn stream buffer declared count last ∧ last.Leaves declared step ∧
        count ≤ stream.length - 8 ∧
        decode stream buffer = .after step.reached buffer (step.result declared) := by
  refine ⟨fun limit hlimit hstream => indexed_decode_eq hlimit hstream,
    fun declared count progress hturn => ?_, fun declared hfront hroom => ?_⟩
  · obtain ⟨hfront, hroom⟩ := hturn.declares
    obtain ⟨hinside, hcount⟩ := hturn.inside
    have hdeclared := (declaredLength_lt hfront).2
    refine ⟨⟨hinside.front, hinside.inside⟩, ⟨hinside.fits, hroom⟩, fun hmore =>
      ⟨fun limit hlimit hstream => ?_, fun hshort header hparse => ?_, fun later hnext => ?_⟩⟩
    · exact Indexed.pass_eq hlimit hstream hdeclared (List.length_take_of_le hroom) hinside
    · have hheader := hinside.header_inside hparse
      have hpayload := (Indexed.sizes_lt hparse).1
      omega
    · exact ⟨(hinside.next hnext).2, (hturn.next (Nat.not_le.2 hmore) hnext).count_le⟩
  · obtain ⟨count, last, hturn, hleaves⟩ := (Turn.first hfront (Nat.not_lt.2 hroom)).exists_leaves
    exact ⟨count, last, _, hturn, hleaves, hturn.count_le, decode_of_room hfront hroom⟩

theorem decode_stays_inside_mixed :
    Indexed.decode (2 ^ 64) mixed (List.replicate 12 0xEE) =
        .ok (.ok 9, [5, 1, 2, 3, 4, 9, 3, 2, 1, 0xEE, 0xEE, 0xEE]) ∧
      (∃ later, (Progress.start mixed).next 9 = .applied later ∧ later.output.size = 0 ∧
        Turn mixed (List.replicate 12 0xEE) 9 1 later ∧ 8 + 1 ≤ later.offset ∧
        later.offset ≤ mixed.length ∧
        ∀ header, Header.parse? later.rest = some header →
          later.offset + header.size + header.payloadSize < 2 ^ 64) ∧
      ∃ count last step, Turn mixed (List.replicate 12 0xEE) 9 count last ∧ last.Leaves 9 step ∧
        count ≤ 17 ∧ decode mixed (List.replicate 12 0xEE) =
          .after step.reached (List.replicate 12 0xEE) (step.result 9) := by
  obtain ⟨hindexed, hturns, hends⟩ := decode_stays_inside mixed (List.replicate 12 0xEE)
  have hfront : declaredLength mixed = .ok 9 := by cbv
  have hroom : 9 ≤ (List.replicate 12 (0xEE : UInt8)).length := by decide
  have hstart := Turn.first hfront (Nat.not_lt.2 hroom)
  refine ⟨(hindexed (2 ^ 64) (by decide) (by decide)).trans (by cbv), ?_, hends 9 hfront hroom⟩
  obtain ⟨later, hnext, hsize⟩ : ∃ later, (Progress.start mixed).next 9 = .applied later ∧
      later.output.size = 0 := ⟨_, rfl, rfl⟩
  have hturn := hstart.next (by decide) hnext
  obtain ⟨-, -, hfirst⟩ := hturns 9 0 _ hstart
  obtain ⟨⟨-, hinside⟩, -, hsecond⟩ := hturns 9 1 _ hturn
  exact ⟨later, hnext, hsize, hturn, ((hfirst (by decide)).2.2 later hnext).1, hinside,
    (hsecond (by rw [hsize]; decide)).2.1 (by decide)⟩

end BootLogo.Runs
