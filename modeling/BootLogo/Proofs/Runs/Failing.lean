import BootLogo.Proofs.Runs.Decoding
import Mathlib.Data.List.Infix

/-!
# How unpacking fails

`Failure stream buffer error after` lists, without the decoder, the ways in which a stream cannot be unpacked
into a buffer: what the error says, and what is in the buffer afterwards. A bad front and a small buffer are
found before anything is written. From then on the buffer holds what the chunks in front of the first bad
token stand for. That token is `CutShort`, or it is `Overlong`; one that is both is overlong.

* `Progress.run_stops`: where the steps end if they do not reach the target, and why.
* `decode_fails_iff`: unpacking fails in these ways and in no others.
-/

namespace BootLogo.Runs

/-- The stream starts with the magic number and a length, and does not end there. -/
structure Declares (stream : Bytes) (declared : Nat) : Prop where
  long : frontSize < stream.length
  signature : stream.take 4 = [0x52, 0x4C, 0x45, 0x2E]
  length : stream.word 4 = declared

/-- The bytes end before the next token does: in its header, or in its payload if `room` bytes are enough for
what it writes. -/
inductive CutShort (room : Nat) : Bytes → Prop where
  | header {bytes : Bytes}
      (cut : ∀ header spelled after, Spelling header spelled → bytes ≠ spelled ++ after) :
      CutShort room bytes
  | payload {header : Header} {spelled payload : Bytes} (spelling : Spelling header spelled)
      (fits : header.outputSize ≤ room) (short : payload.length < header.payloadSize) :
      CutShort room (spelled ++ payload)

/-- The next token has its whole header, and `room` bytes are not enough for what it writes. -/
def Overlong (room : Nat) (bytes : Bytes) : Prop :=
  ∃ header spelled after, Spelling header spelled ∧ bytes = spelled ++ after ∧ room < header.outputSize

/-- The chunks are complete tokens at the start of the stream, and do not reach the declared length. -/
structure Reaches (stream buffer : Bytes) (declared : Nat) (chunks : List Chunk) (rest : Bytes) :
    Prop where
  declares : Declares stream declared
  room : declared ≤ buffer.length
  tokens : stream.drop frontSize = chunks.flatMap Chunk.stored ++ rest
  lacks : (chunks.flatMap Chunk.shown).length < declared

/-- Unpacking the stream into the buffer fails with the error and leaves `after` in the buffer. -/
inductive Failure (stream buffer : Bytes) : Error → (after : Bytes) → Prop where
  | tooShort (short : stream.length ≤ frontSize) :
      Failure stream buffer (.tooShort stream.length) buffer
  | badMagic (long : frontSize < stream.length) (other : stream.take 4 ≠ [0x52, 0x4C, 0x45, 0x2E]) :
      Failure stream buffer (.badMagic (stream.word 0)) buffer
  | outputTooSmall {declared : Nat} (declares : Declares stream declared)
      (small : buffer.length < declared) :
      Failure stream buffer (.outputTooSmall declared buffer.length) buffer
  | truncated {declared : Nat} {chunks : List Chunk} {rest : Bytes}
      (reaches : Reaches stream buffer declared chunks rest)
      (cut : CutShort (declared - (chunks.flatMap Chunk.shown).length) rest) :
      Failure stream buffer
        (.truncated (frontSize + (chunks.flatMap Chunk.stored).length)
          (chunks.flatMap Chunk.shown).length declared)
        (chunks.flatMap Chunk.shown ++ buffer.drop (chunks.flatMap Chunk.shown).length)
  | overrun {declared : Nat} {chunks : List Chunk} {rest : Bytes}
      (reaches : Reaches stream buffer declared chunks rest)
      (overlong : Overlong (declared - (chunks.flatMap Chunk.shown).length) rest) :
      Failure stream buffer
        (.overrun (frontSize + (chunks.flatMap Chunk.stored).length)
          (chunks.flatMap Chunk.shown).length declared)
        (chunks.flatMap Chunk.shown ++ buffer.drop (chunks.flatMap Chunk.shown).length)

variable {stream buffer : Bytes} {declared target : Nat}

/-! ## The front -/

theorem word_of_signature (h : stream.take 4 = [0x52, 0x4C, 0x45, 0x2E]) : stream.word 0 = magic := by
  rw [@Bytes.word_congr stream [0x52, 0x4C, 0x45, 0x2E] 4 0 h (Nat.le_refl 4)]
  rfl

theorem declaredLength_eq_ok_iff_declares :
    declaredLength stream = .ok declared ↔ Declares stream declared := by
  constructor
  · intro h
    obtain ⟨b0, b1, b2, b3, body, hstream, hbody, -⟩ := declaredLength_eq_ok_iff.1 h
    have hlong := List.length_pos_iff.2 hbody
    have hfront : frontSize < stream.length := by simp [hstream, frontSize, hlong]
    have hsignature : stream.take 4 = [0x52, 0x4C, 0x45, 0x2E] := by rw [hstream]; rfl
    refine ⟨hfront, hsignature, ?_⟩
    rw [declaredLength, if_neg (Nat.not_le.2 hfront),
      if_neg (not_not_intro (word_of_signature hsignature))] at h
    exact Except.ok.inj h
  · rintro ⟨hlong, hsignature, rfl⟩
    rw [declaredLength, if_neg (Nat.not_le.2 hlong),
      if_neg (not_not_intro (word_of_signature hsignature))]

/-! ## One step -/

/-- The next token cannot be applied, for the reason that the step gives. -/
def Progress.Step.Stops (target : Nat) : Step → Prop
  | .applied _ => False
  | .cut stuck => CutShort (target - stuck.output.size) stuck.rest
  | .overruns stuck => Overlong (target - stuck.output.size) stuck.rest

namespace Progress

variable {progress : Progress} {step : Step}

theorem next_stops (h : progress.next target = step) (hstop : ∀ later, step ≠ .applied later) :
    progress.Follows [] step.reached ∧ step.Stops target := by
  have hsame (headers : Array (Nat × Header)) : progress.Follows [] { progress with headers } :=
    ⟨rfl, (List.append_nil _).symm, rfl⟩
  subst h
  unfold next at hstop ⊢
  split
  · rename_i hparse
    refine ⟨hsame _, .header fun header spelled after hspelled hrest => ?_⟩
    have hsome := parse?_eq_some_iff.2 ⟨spelled, after, hrest, hspelled⟩
    cases hparse.symm.trans hsome
  · rename_i header hparse
    obtain ⟨spelled, after, hrest, hspelled⟩ := parse?_eq_some_iff.1 hparse
    simp only [hparse] at hstop ⊢
    split
    · rename_i hover
      exact ⟨hsame _, header, spelled, after, hspelled, hrest, hover⟩
    · rename_i hfits
      split
      · rename_i hsplit
        refine ⟨hsame _, ?_⟩
        rw [hrest, hspelled.size_eq, List.drop_left, Bytes.split?_eq_none_iff] at hsplit
        change CutShort _ progress.rest
        rw [hrest]
        exact .payload hspelled (Nat.not_lt.1 hfits) hsplit
      · rename_i payload rest hsplit
        simp only [if_neg hfits, hsplit] at hstop
        exact absurd rfl (hstop _)

theorem next_of_cutShort (h : CutShort (target - progress.output.size) progress.rest) :
    ∃ stuck, progress.next target = .cut stuck := by
  generalize hrest : progress.rest = bytes at h
  cases h with
  | header hcut =>
    have hparse : Header.parse? progress.rest = none := by
      rw [Option.eq_none_iff_forall_ne_some]
      intro header hsome
      obtain ⟨spelled, after, hspelled, hheader⟩ := parse?_eq_some_iff.1 hsome
      exact hcut header spelled after hheader (hrest.symm.trans hspelled)
    exact ⟨progress, by simp only [next, hparse]⟩
  | @payload header spelled payload hspelled hfits hshort =>
    have hparse : Header.parse? progress.rest = some header :=
      parse?_eq_some_iff.2 ⟨spelled, payload, hrest, hspelled⟩
    have hsplit : Bytes.split? (progress.rest.drop header.size) header.payloadSize = none := by
      rw [hrest, hspelled.size_eq, List.drop_left, Bytes.split?_eq_none_iff]
      exact hshort
    simp only [next, hparse, hsplit, if_neg (Nat.not_lt.2 hfits)]
    exact ⟨_, rfl⟩

theorem next_of_overlong (h : Overlong (target - progress.output.size) progress.rest) :
    ∃ stuck, progress.next target = .overruns stuck := by
  obtain ⟨header, spelled, after, hspelled, hrest, hover⟩ := h
  have hparse : Header.parse? progress.rest = some header :=
    parse?_eq_some_iff.2 ⟨spelled, after, hrest, hspelled⟩
  simp only [next, hparse, if_pos hover]
  exact ⟨_, rfl⟩

/-! ## All steps -/

/-- Steps that do not reach the target end at the first token that cannot be applied. -/
theorem run_stops (h : progress.run target = step) (hstop : ∀ later, step ≠ .applied later) :
    ∃ chunks, progress.Follows chunks step.reached ∧ step.reached.output.size < target ∧
      step.Stops target := by
  fun_induction run target progress with
  | case1 progress _ => exact absurd h.symm (hstop progress)
  | case2 progress _ middle hnext ih =>
    obtain ⟨chunk, hchunk, -⟩ := next_sound hnext
    obtain ⟨chunks, hsteps, hlacks, hstops⟩ := ih h
    exact ⟨chunk :: chunks, hchunk.trans hsteps, hlacks, hstops⟩
  | case3 progress hlacks stuck hnext | case4 progress hlacks stuck hnext =>
    subst h
    obtain ⟨hsame, hstops⟩ := next_stops hnext fun _ => Step.noConfusion
    have hsize : stuck.output.size = progress.output.size := hsame.size
    exact ⟨[], hsame, show stuck.output.size < target by omega, hstops⟩

end Progress

/-! ## Whole streams -/

theorem length_shown_take_le (chunks : List Chunk) (k : Nat) :
    ((chunks.take k).flatMap Chunk.shown).length ≤ (chunks.flatMap Chunk.shown).length :=
  (List.IsPrefix.flatMap (List.take_prefix k chunks) Chunk.shown).length_le

theorem Reaches.decode_stops {chunks : List Chunk} {rest : Bytes}
    (h : Reaches stream buffer declared chunks rest) :
    ∃ later : Progress, later.rest = rest ∧
      later.output.size = (chunks.flatMap Chunk.shown).length ∧
      ∀ step, later.next declared = step → (∀ other, step ≠ .applied other) →
        step.reached.output.size = (chunks.flatMap Chunk.shown).length ∧
        step.reached.offset = frontSize + (chunks.flatMap Chunk.stored).length ∧
        (decode stream buffer).result = step.result declared ∧
        (decode stream buffer).buffer =
          chunks.flatMap Chunk.shown ++ buffer.drop (chunks.flatMap Chunk.shown).length := by
  have hempty : (Progress.start stream).output.size = 0 := rfl
  have hlacks := h.lacks
  obtain ⟨later, hrun, hsteps, hrest⟩ := @Progress.run_follows declared
    (Progress.start stream) _ _ h.tokens (by rw [hempty]; omega) fun k _ => by
      have hfront := length_shown_take_le chunks k
      rw [hempty]
      omega
  obtain ⟨-, hsize, -⟩ := hsteps.of_start
  refine ⟨later, hrest, hsize, fun step hnext hstop => ?_⟩
  have hsame := hsteps.trans (Progress.next_stops hnext hstop).1
  rw [List.append_nil] at hsame
  have hlast : (Progress.start stream).run declared = step := by
    rw [hrun, Progress.run_eq, if_neg (by omega), hnext]
    cases step with
    | applied other => exact absurd rfl (hstop other)
    | cut stuck => rfl
    | overruns stuck => rfl
  have hdecode := decode_of_room (declaredLength_eq_ok_iff_declares.2 h.declares) h.room
  rw [hlast] at hdecode
  obtain ⟨-, hreached, hoffset⟩ := hsame.of_start
  rw [hdecode]
  exact ⟨hreached, hoffset, rfl, Decoding.buffer_after hsame⟩

variable {error : Error} {after : Bytes}

theorem failure_of_declaredLength (h : declaredLength stream = .error error) :
    Failure stream buffer error buffer := by
  unfold declaredLength at h
  split at h
  · rename_i hshort
    cases h
    exact .tooShort hshort
  · rename_i hlong
    split at h
    · rename_i hmagic
      cases h
      exact .badMagic (Nat.not_le.1 hlong) fun hsignature => hmagic (word_of_signature hsignature)
    · cases h

theorem failure_of_stops {chunks : List Chunk} {step : Progress.Step}
    (hfront : declaredLength stream = .ok declared) (hroom : declared ≤ buffer.length)
    (hsteps : (Progress.start stream).Follows chunks step.reached)
    (hlacks : step.reached.output.size < declared) (hstops : step.Stops declared)
    (herror : step.result declared = .error error) :
    Failure stream buffer error
      (chunks.flatMap Chunk.shown ++ buffer.drop (chunks.flatMap Chunk.shown).length) := by
  obtain ⟨-, hsize, hoffset⟩ := hsteps.of_start
  have hreaches : Reaches stream buffer declared chunks step.reached.rest :=
    ⟨declaredLength_eq_ok_iff_declares.1 hfront, hroom, hsteps.rest, hsize ▸ hlacks⟩
  cases step with
  | applied later => exact hstops.elim
  | cut stuck =>
    cases herror
    have hcut : CutShort (declared - (chunks.flatMap Chunk.shown).length) stuck.rest := hsize ▸ hstops
    rw [show stuck.offset = _ from hoffset, show stuck.output.size = _ from hsize]
    exact .truncated hreaches hcut
  | overruns stuck =>
    cases herror
    have hover : Overlong (declared - (chunks.flatMap Chunk.shown).length) stuck.rest := hsize ▸ hstops
    rw [show stuck.offset = _ from hoffset, show stuck.output.size = _ from hsize]
    exact .overrun hreaches hover

theorem failure_of_decode (h : (decode stream buffer).result = .error error) :
    Failure stream buffer error (decode stream buffer).buffer := by
  cases hfront : declaredLength stream with
  | error cause =>
    rw [decode_of_badFront hfront] at h ⊢
    cases h
    exact failure_of_declaredLength hfront
  | ok declared =>
    by_cases hroom : declared ≤ buffer.length
    · rw [decode_of_room hfront hroom] at h ⊢
      obtain ⟨chunks, hsteps, hlacks, hstops⟩ := Progress.run_stops rfl fun later hlast => by
        rw [hlast] at h
        cases h
      rw [Decoding.buffer_after hsteps]
      exact failure_of_stops hfront hroom hsteps hlacks hstops h
    · rw [decode_of_smallBuffer hfront (Nat.not_le.1 hroom)] at h ⊢
      cases h
      exact .outputTooSmall (declaredLength_eq_ok_iff_declares.1 hfront) (Nat.not_le.1 hroom)

theorem decode_of_failure (h : Failure stream buffer error after) :
    (decode stream buffer).result = .error error ∧ (decode stream buffer).buffer = after := by
  cases h with
  | tooShort hshort =>
    rw [decode, declaredLength, if_pos hshort]
    exact ⟨rfl, rfl⟩
  | badMagic hlong hother =>
    have hmagic : stream.word 0 ≠ magic := by
      intro hmagic
      have hfront : declaredLength stream = .ok (stream.word 4) := by
        rw [declaredLength, if_neg (Nat.not_le.2 hlong), if_neg (not_not_intro hmagic)]
      exact hother (declaredLength_eq_ok_iff_declares.1 hfront).signature
    rw [decode, declaredLength, if_neg (Nat.not_le.2 hlong), if_pos hmagic]
    exact ⟨rfl, rfl⟩
  | outputTooSmall hdeclares hsmall =>
    rw [decode_of_smallBuffer (declaredLength_eq_ok_iff_declares.2 hdeclares) hsmall]
    exact ⟨rfl, rfl⟩
  | truncated hreaches hcut =>
    obtain ⟨later, rfl, hlater, hlast⟩ := hreaches.decode_stops
    obtain ⟨stuck, hnext⟩ := Progress.next_of_cutShort (hlater.symm ▸ hcut)
    obtain ⟨hsize, hoffset, hresult, hbuffer⟩ := hlast _ hnext fun _ => Progress.Step.noConfusion
    rw [hresult, ← hsize, ← hoffset]
    exact ⟨rfl, hsize ▸ hbuffer⟩
  | overrun hreaches hover =>
    obtain ⟨later, rfl, hlater, hlast⟩ := hreaches.decode_stops
    obtain ⟨stuck, hnext⟩ := Progress.next_of_overlong (hlater.symm ▸ hover)
    obtain ⟨hsize, hoffset, hresult, hbuffer⟩ := hlast _ hnext fun _ => Progress.Step.noConfusion
    rw [hresult, ← hsize, ← hoffset]
    exact ⟨rfl, hsize ▸ hbuffer⟩

/-- **Unpacking fails in the ways of `Failure` and in no others**, with exactly that error and exactly that
buffer. -/
theorem decode_fails_iff (stream buffer after : Bytes) (error : Error) :
    (decode stream buffer).result = .error error ∧ (decode stream buffer).buffer = after ↔
      Failure stream buffer error after := by
  constructor
  · rintro ⟨herror, rfl⟩
    exact failure_of_decode herror
  · exact decode_of_failure

/-- Two literal bytes, and a run of three bytes of which there is no room for the third. The byte that is to
be repeated is missing too. -/
def overlong : Bytes := [0x52, 0x4C, 0x45, 0x2E, 4, 0, 0, 0, 0x02, 1, 2, 0x43]

theorem decode_overlong :
    (decode overlong (List.replicate 5 0xEE)).result = .error (.overrun 11 2 4) ∧
      (decode overlong (List.replicate 5 0xEE)).buffer = [1, 2, 0xEE, 0xEE, 0xEE] := by
  constructor <;> cbv

theorem decode_fails_overlong :
    (decode overlong (List.replicate 5 0xEE)).result = .error (.overrun 11 2 4) ∧
      Failure overlong (List.replicate 5 0xEE) (.overrun 11 2 4) [1, 2, 0xEE, 0xEE, 0xEE] := by
  exact ⟨decode_overlong.1, (decode_fails_iff _ _ _ _).1 decode_overlong⟩

end BootLogo.Runs
