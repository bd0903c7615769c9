import BootLogo.Proofs.Runs.Room
import BootLogo.Proofs.Runs.Spelling

/-!
# The shortest header

A header of so many bytes has room for lengths below a bound that grows by seven bits with each byte. What
was spelled is below the bound of its own size, so the shortest header, which is chosen by those bounds, is
no longer.

* `Spelling.length_lt`: the bound.
* `shortestSize_le_of_spelling`: no spelling is shorter than the shortest.
* `write_shortest`: what is written, and that nothing shorter is read as the same.
-/

namespace BootLogo.Runs

variable {kind : Kind} {header : Header} {bytes buffer stream : Bytes} {length : Nat}

/-! ## How much a header holds -/

theorem Extension.length_le {room : Nat} (h : Extension room bytes) : bytes.length ≤ room := by
  induction h with
  | full => exact Nat.le_refl 0
  | last _ => exact Nat.succ_le_succ (Nat.zero_le _)
  | more _ _ ih => exact Nat.succ_le_succ ih

theorem extended_lt {top range : Nat} (h : top < range) (more : Bytes) :
    extended top more < range * 128 ^ more.length := by
  induction more generalizing top range with
  | nil => simpa [extended] using h
  | cons b rest ih =>
    have hnext : 128 * top + b.toNat % 128 < range * 128 := by omega
    calc extended top (b :: rest)
        = extended (128 * top + b.toNat % 128) rest := rfl
      _ < range * 128 * 128 ^ rest.length := ih hnext
      _ = range * 128 ^ (b :: rest).length := by rw [List.length_cons, Nat.pow_succ']; ring

theorem Spelling.size_mem (h : Spelling header bytes) : 1 ≤ header.size ∧ header.size ≤ 4 := by
  cases h with
  | short _ => exact ⟨Nat.le_refl 1, Nat.le_add_left 1 3⟩
  | long _ hmore => exact ⟨Nat.succ_pos _, Nat.succ_le_succ hmore.length_le⟩

theorem Spelling.length_lt (h : Spelling header bytes) :
    header.length < header.kind.topRange * 128 ^ (header.size - 1) := by
  have hrange (kind : Kind) : 0 < kind.topRange := by cases kind <;> decide
  cases h with
  | short _ => exact (Nat.mod_lt _ (hrange _)).trans_eq (Nat.mul_one _).symm
  | long _ _ => exact extended_lt (Nat.mod_lt _ (hrange _)) _

theorem Spelling.length_le_maxLength (h : Spelling header bytes) :
    header.length ≤ header.kind.maxLength := by
  have hpow : 128 ^ (header.size - 1) ≤ 128 ^ 3 :=
    Nat.pow_le_pow_right (by decide) (Nat.sub_le_sub_right h.size_mem.2 1)
  exact Nat.le_sub_one_of_lt (h.length_lt.trans_le (Nat.mul_le_mul_left _ hpow))

theorem shortestSize_le_of_lt {further : Nat} (h : length < kind.topRange * 128 ^ further)
    (hfurther : further ≤ 3) : Header.shortestSize kind length ≤ further + 1 := by
  obtain rfl | rfl | rfl | rfl : further = 0 ∨ further = 1 ∨ further = 2 ∨ further = 3 := by omega
  all_goals
    unfold Header.shortestSize
    split_ifs
    all_goals omega

theorem shortestSize_le_of_spelling (h : Spelling header bytes) :
    Header.shortestSize header.kind header.length ≤ header.size := by
  have hsize := h.size_mem
  have hle := shortestSize_le_of_lt h.length_lt (by omega)
  omega

/-! ## What is written -/

theorem write_eq_ok (h : length ≤ kind.maxLength) (hroom : Header.shortestSize kind length ≤ buffer.length) :
    Header.write kind length buffer =
      (.ok (Header.shortestSize kind length), buffer.overwrite (Header.shortest kind length)) := by
  rw [← length_shortest] at hroom
  rw [Header.write, if_neg (Nat.not_lt.2 h), if_neg (Nat.not_lt.2 hroom), length_shortest]

theorem parse?_shortest (h : length ≤ kind.maxLength) (rest : Bytes) :
    Header.parse? (Header.shortest kind length ++ rest) =
      some ⟨kind, length, Header.shortestSize kind length⟩ := by
  rw [← length_shortest]
  exact parse?_eq_some_iff.2 ⟨_, rest, rfl, spelling_shortest h⟩

/-- **What is written is the shortest header of its kind and length**: wherever its bytes stand in a stream
they are read back, and every header that is read could have been written in as few bytes or fewer. -/
theorem Header.write_shortest :
    (∀ kind length buffer, kind.maxLength < length →
      write kind length buffer = (.error (.lengthTooLarge length), buffer)) ∧
    (∀ kind length, length ≤ kind.maxLength → ∃ size, 1 ≤ size ∧ size ≤ 4 ∧
      ∀ buffer,
        (buffer.length < size →
          write kind length buffer = (.error (.outputTooSmall size buffer.length), buffer)) ∧
        (size ≤ buffer.length → ∃ after, write kind length buffer = (.ok size, after) ∧
          after.length = buffer.length ∧ after.drop size = buffer.drop size ∧
          ∀ (stream : Bytes) offset, (stream.drop offset).take size = after.take size →
            parse? (stream.drop offset) = some ⟨kind, length, size⟩)) ∧
    ∀ (stream : Bytes) offset header, parse? (stream.drop offset) = some header →
      1 ≤ header.size ∧ header.size ≤ 4 ∧ header.length ≤ header.kind.maxLength ∧
      ∃ size ≤ header.size, ∀ buffer, size ≤ buffer.length →
        (write header.kind header.length buffer).1 = .ok size := by
  refine ⟨fun kind length buffer hlength => if_pos hlength, fun kind length hlength => ?_,
    fun stream offset header hparse => ?_⟩
  · refine ⟨shortestSize kind length, shortestSize_pos kind length, shortestSize_le kind length,
      fun buffer => ⟨fun hshort => ?_, fun hroom => ⟨_, write_eq_ok hlength hroom, ?_, ?_, ?_⟩⟩⟩
    · rw [← length_shortest] at hshort
      rw [write, if_neg (Nat.not_lt.2 hlength), if_pos hshort, length_shortest]
    · rw [← length_shortest] at hroom
      exact Bytes.length_overwrite hroom
    · rw [Bytes.overwrite, ← length_shortest, List.drop_left]
    · -- the bytes that were written are the front of what is read
      intro stream offset hstream
      rw [Bytes.overwrite, ← length_shortest, List.take_left] at hstream
      rw [← List.take_append_drop (shortest kind length).length (stream.drop offset), hstream]
      exact parse?_shortest hlength _
  · obtain ⟨spelled, rest, -, hspelled⟩ := parse?_eq_some_iff.1 hparse
    obtain ⟨hpos, hfour⟩ := hspelled.size_mem
    refine ⟨hpos, hfour, hspelled.length_le_maxLength, _, shortestSize_le_of_spelling hspelled,
      fun buffer hroom => ?_⟩
    rw [write_eq_ok hspelled.length_le_maxLength hroom]

theorem Header.write_shortest_word :
    write .word 2000 [1, 2] = (.ok 2, [239, 80]) ∧
      write .word 2000 [1] = (.error (.outputTooSmall 2 1), [1]) ∧
      parse? (List.drop 1 [7, 239, 80, 200]) = some ⟨.word, 2000, 2⟩ ∧
      write .word 33554432 [1] = (.error (.lengthTooLarge 33554432), [1]) ∧
      parse? (List.drop 1 [7, 224, 143, 80]) = some ⟨.word, 2000, 3⟩ ∧
      ∃ size ≤ 3, ∀ buffer, size ≤ buffer.length → (write .word 2000 buffer).1 = .ok size := by
  obtain ⟨hlarge, hwrite, hread⟩ := write_shortest
  obtain ⟨size, -, -, hbuffer⟩ := hwrite .word 2000 (by decide)
  have hlong : parse? (List.drop 1 [7, 224, 143, 80]) = some ⟨.word, 2000, 3⟩ := by decide
  have hwritten : write .word 2000 [1, 2] = (.ok 2, [239, 80]) := by decide
  obtain ⟨after, hafter, -, -, hparse⟩ := (hbuffer [1, 2]).2 (by
    by_contra hshort
    have herror := (hbuffer [1, 2]).1 (Nat.not_le.1 hshort)
    rw [hwritten] at herror
    cases herror)
  rw [hwritten] at hafter
  cases hafter
  exact ⟨hwritten, (hbuffer [1]).1 (by decide), hparse [7, 239, 80, 200] 1 rfl,
    hlarge .word 33554432 [1] (by decide), hlong, (hread _ 1 _ hlong).2.2.2⟩

end BootLogo.Runs
