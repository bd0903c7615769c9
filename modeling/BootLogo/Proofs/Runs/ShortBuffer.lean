import BootLogo.Proofs.Runs.RoundTrip

/-!
# Packing into a buffer that is too short

The stream is written piece by piece, and each piece is measured before it is written. So a buffer that has
no room for the stream gets the pieces in front of the first one that does not fit, and keeps its own bytes
behind them.

* `fit_eq_some`: what is written when a piece does not fit, and that it was measured right.
* `encode_front`: whatever the buffer, what is written to it is a front of the same stream.
-/

namespace BootLogo.Runs

variable {data buffer : Bytes} {error : Error}

/-- The room is less than what is needed. -/
def Error.IsShortage (error : Error) : Prop :=
  ∃ needed room, error = .outputTooSmall needed room ∧ room < needed

theorem Piece.isShortage_shortage {piece : Piece} {used capacity : Nat} (hused : used ≤ capacity)
    (h : capacity < used + piece.bytes.length) : (piece.shortage used capacity).IsShortage := by
  cases piece with
  | header bytes =>
    have hroom : capacity < used + bytes.length := h
    exact ⟨bytes.length, capacity - used, rfl, by omega⟩
  | payload bytes => exact ⟨used + bytes.length, capacity, rfl, h⟩

theorem fit_eq_some {capacity : Nat} {written filled : Array UInt8} {list : List Piece}
    (hsize : written.size ≤ capacity) (h : fit capacity written list = (filled, some error)) :
    error.IsShortage ∧ filled.size ≤ capacity ∧
      filled.toList <+: written.toList ++ list.flatMap Piece.bytes := by
  induction list generalizing written with
  | nil => cases h
  | cons piece list ih =>
    rw [fit] at h
    split at h
    · rename_i hshort
      cases h
      exact ⟨Piece.isShortage_shortage hsize hshort, hsize, List.prefix_append _ _⟩
    · have hroom : (written ++ piece.bytes).size ≤ capacity := by
        rw [size_append_piece]
        omega
      obtain ⟨herror, hfilled, hfront⟩ := ih hroom h
      refine ⟨herror, hfilled, ?_⟩
      rwa [Array.toList_appendList, List.append_assoc, ← List.flatMap_cons] at hfront

theorem encode_of_shortage (hne : data ≠ []) (hlimit : data.length < wordLimit)
    (hshort : buffer.length < (stream data).length) :
    (∃ error, (encode data buffer).result = .error error ∧ error.IsShortage) ∧
      ∃ count ≤ buffer.length,
        (encode data buffer).buffer = (stream data).take count ++ buffer.drop count := by
  have hstream : (#[] : Array UInt8).toList ++ (pieces data).flatMap Piece.bytes = stream data := by
    rw [stream, List.nil_append]
  rw [encode, if_neg hne, if_neg (Nat.not_le.2 hlimit)]
  generalize hfit : fit buffer.length #[] (pieces data) = filled
  obtain ⟨filled, shortage⟩ := filled
  cases shortage with
  | none =>
    -- all of the stream would have been written
    obtain ⟨hfilled, hroom⟩ := fit_eq_none (Nat.zero_le _) hfit
    rw [hstream] at hfilled
    rw [← Array.length_toList, hfilled] at hroom
    exact absurd hroom (Nat.not_le.2 hshort)
  | some error =>
    obtain ⟨herror, hsize, hfront⟩ := fit_eq_some (Nat.zero_le _) hfit
    rw [hstream, List.prefix_iff_eq_take, Array.length_toList] at hfront
    refine ⟨⟨error, rfl, herror⟩, filled.size, hsize, ?_⟩
    rw [← hfront, ← Array.length_toList]
    rfl

/-- **One stream for every buffer**: it is written in full exactly if the buffer has room for it. If not, the
error says that room is missing, and a front of the stream lies before the bytes that were there. -/
theorem encode_front (hne : data ≠ []) (hlimit : data.length < wordLimit) :
    ∃ packed : Bytes, ∀ buffer : Bytes,
      ((encode data buffer).result = .ok packed.length ∧
          (encode data buffer).buffer = packed ++ buffer.drop packed.length ↔
        packed.length ≤ buffer.length) ∧
      (buffer.length < packed.length →
        (∃ error, (encode data buffer).result = .error error ∧ error.IsShortage) ∧
          ∃ count ≤ buffer.length,
            (encode data buffer).buffer = packed.take count ++ buffer.drop count) := by
  refine ⟨stream data, fun buffer => ⟨⟨fun ⟨hresult, _⟩ => ?_, fun hroom => ?_⟩, fun hshort => ?_⟩⟩
  · by_contra hroom
    obtain ⟨⟨error, herror, -⟩, -⟩ := encode_of_shortage hne hlimit (Nat.not_le.1 hroom)
    cases hresult.symm.trans herror
  · have hresult := encode_of_room hne hlimit hroom
    obtain ⟨-, -, -, hbuffer⟩ := encode_eq_ok hresult
    exact ⟨hresult, hbuffer⟩
  · exact encode_of_shortage hne hlimit hshort

/-- In a buffer of 15 bytes the stream of 19 breaks off in a payload: only what is in front of it is there. -/
theorem encode_front_assorted :
    ∃ packed : Bytes, packed.length = 19 ∧ ∃ count ≤ 15,
      (encode assorted (List.replicate 15 0xEE)).buffer =
        packed.take count ++ (List.replicate 15 0xEE).drop count := by
  obtain ⟨packed, hpacked⟩ := @encode_front assorted (by decide) (by decide)
  have hfull : (encode assorted (List.replicate 40 0xEE)).result = .ok 19 := by cbv
  obtain ⟨htaken, hshort⟩ := hpacked (List.replicate 40 0xEE)
  have hlength : packed.length = 19 := by
    by_cases hroom : packed.length ≤ 40
    · obtain ⟨hresult, -⟩ := htaken.2 hroom
      exact Except.ok.inj (hresult.symm.trans hfull)
    · obtain ⟨⟨error, herror, -⟩, -⟩ := hshort (Nat.not_le.1 hroom)
      cases hfull.symm.trans herror
  refine ⟨packed, hlength, ?_⟩
  have hfifteen : (List.replicate 15 (0xEE : UInt8)).length < packed.length := by
    rw [hlength, List.length_replicate]
    decide
  exact ((hpacked (List.replicate 15 0xEE)).2 hfifteen).2

end BootLogo.Runs
