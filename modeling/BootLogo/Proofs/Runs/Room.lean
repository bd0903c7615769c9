import BootLogo.Proofs.Runs.RoundTrip

/-!
# How long a stream can get

Only the headers of literals make a stream longer than its data, and every repeat is shorter than what it
repeats. So a repeat pays the first byte of the header of the literal in front of it, and each further byte of
that header stands for at least 32 bytes of the literal. Nothing pays for a literal at the end, which costs
one byte more.

* `Token.spell_lt`, `spell_literals_le`: what a repeat saves, and what literals cost.
* `Cuts.spell_le`: the two balance over all tokens.
* `encode_within_capacity`: a buffer of `capacity` bytes has room for the stream.
-/

namespace BootLogo.Runs

variable {bytes data buffer : Bytes} {token : Token}

/-! ## Headers -/

theorem length_groups (count length : Nat) : (Header.groups count length).length = count := by
  induction count with
  | zero => rfl
  | succ count ih => rw [Header.groups, List.length_cons, ih]

theorem shortestSize_pos (kind : Kind) (length : Nat) : 0 < Header.shortestSize kind length := by
  unfold Header.shortestSize
  split_ifs <;> decide

theorem length_shortest (kind : Kind) (length : Nat) :
    (Header.shortest kind length).length = Header.shortestSize kind length := by
  rw [Header.shortest, List.length_cons, length_groups]
  exact Nat.sub_add_cancel (shortestSize_pos kind length)

theorem Token.length_spell (token : Token) :
    token.spell.length = Header.shortestSize token.kind token.length + token.payload.length := by
  rw [Token.spell, List.length_append, length_shortest]

theorem shortestSize_le (kind : Kind) (length : Nat) : Header.shortestSize kind length ≤ 4 := by
  unfold Header.shortestSize
  split_ifs <;> decide

theorem two_mul_shortestSize_le {kind : Kind} {length : Nat} (h : 2 ≤ length) :
    2 * Header.shortestSize kind length ≤ length := by
  have hrange : 16 ≤ kind.topRange := by cases kind <;> decide
  unfold Header.shortestSize
  split_ifs <;> omega

theorem shortestSize_literal_le (length : Nat) :
    32 * Header.shortestSize .literal length ≤ length + 32 := by
  have hrange : Kind.literal.topRange = 64 := rfl
  rw [Header.shortestSize, hrange]
  split_ifs <;> omega

/-! ## Tokens -/

theorem Token.spell_lt (h : leadingRepeat? bytes = some token) :
    token.spell.length < token.outputSize := by
  unfold leadingRepeat? at h
  split at h
  · cases h
  · rename_i value rest
    simp only at h
    split at h
    · rename_i hrun
      cases h
      generalize byteRun value (value :: rest) = count at hrun
      have hheader := @two_mul_shortestSize_le .byte count (by omega)
      rw [Token.length_spell]
      show Header.shortestSize .byte count + 1 < count
      omega
    · split at h
      · split at h
        · rename_i b1 b2 b3 further _ hwords
          cases h
          generalize min Kind.word.maxLength (wordCount value b1 b2 b3 1 further) = count at hwords
          have hheader := @two_mul_shortestSize_le .word count hwords
          rw [Token.length_spell]
          show Header.shortestSize .word count + 4 < 4 * count
          omega
        · cases h
      · cases h

theorem spell_literals_le (bytes : Bytes) :
    32 * ((literals bytes).flatMap Token.spell).length ≤ 33 * bytes.length + 32 := by
  fun_induction literals bytes with
  | case1 => exact Nat.zero_le _
  | case2 bytes _ ih =>
    rw [List.flatMap_cons, List.length_append, Token.length_spell]
    show 32 * (Header.shortestSize .literal (bytes.take literalLimit).length +
      (bytes.take literalLimit).length + _) ≤ _
    rw [List.length_take]
    rw [List.length_drop] at ih
    rcases Nat.le_total bytes.length literalLimit with hlast | hfull
    · have hnil : bytes.drop literalLimit = [] := List.drop_eq_nil_of_le hlast
      have hheader := shortestSize_literal_le bytes.length
      rw [Nat.min_eq_right hlast, hnil, literals, if_pos rfl, List.flatMap_nil, List.length_nil]
      omega
    · -- a literal that is as long as can be pays its header in full
      have hheader := shortestSize_le .literal literalLimit
      have hlimit : 32 * 4 ≤ literalLimit := by decide
      rw [Nat.min_eq_left hfull]
      omega

/-- What the repeats save covers the first header byte of each literal but the last. -/
theorem Cuts.spell_le {pending data : Bytes} {list : List Token} (h : Cuts pending data list) :
    32 * (list.flatMap Token.spell).length ≤ 33 * (pending.length + data.length) + 32 := by
  induction h with
  | last pending =>
    have hliterals := spell_literals_le pending.reverse
    rwa [List.length_reverse] at hliterals
  | @found pending data token list hrepeat _ ih =>
    have hliterals := spell_literals_le pending.reverse
    have hsaved := Token.spell_lt hrepeat
    obtain ⟨-, hfront⟩ := leadingRepeat?_spec hrepeat
    have hlength := congrArg List.length hfront
    rw [List.length_append, Token.length_expand] at hlength
    rw [List.length_reverse] at hliterals
    rw [List.length_nil] at ih
    rw [List.flatMap_append, List.flatMap_cons, List.length_append, List.length_append]
    omega
  | passed _ ih =>
    simp only [List.length_cons] at ih ⊢
    omega

theorem length_stream_le (data : Bytes) :
    (stream data).length ≤ 8 + data.length + data.length / 32 + 1 := by
  have hspelled := (cuts_tokens data).spell_le
  rw [stream_eq, List.length_append, List.length_append, Bytes.length_ofWord]
  simp only [List.length_cons, List.length_nil] at hspelled ⊢
  omega

/-- **A buffer of `capacity` bytes takes the stream**, whatever the data: nothing is too long to be spelled,
and there is room for all of it. -/
theorem encode_within_capacity (hne : data ≠ []) (hlimit : data.length < wordLimit)
    (hroom : capacity data.length ≤ buffer.length) :
    (∀ token ∈ tokens data, token.length ≤ token.kind.maxLength) ∧
      ∃ size ≤ capacity data.length, (encode data buffer).result = .ok size := by
  have hstream : (stream data).length ≤ capacity data.length := by
    have hlength := length_stream_le data
    rw [capacity]
    omega
  refine ⟨fun token htoken => ((tokens_cover data).1 token htoken).length_le, ?_⟩
  exact ⟨(stream data).length, hstream, encode_of_room hne hlimit (hstream.trans hroom)⟩

theorem encode_within_capacity_assorted :
    capacity assorted.length = 34 ∧
      ∃ size ≤ 34, (encode assorted (List.replicate 34 0xEE)).result = .ok size := by
  have hroom : capacity assorted.length ≤ (List.replicate 34 (0xEE : UInt8)).length := by decide
  exact ⟨by decide, (encode_within_capacity (by decide) (by decide) hroom).2⟩

end BootLogo.Runs
