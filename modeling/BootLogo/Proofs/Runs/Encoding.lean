import BootLogo.Proofs.Runs.Meaning
import BootLogo.Runs.Encode
import Mathlib.Data.List.Basic
import Mathlib.Data.List.TakeWhile

/-!
# What the packer writes

* `Token.Fit`: a token that can be spelled and that stands for at least one byte.
* `Cuts`: how the data is cut, without the tokens that were there before (`cuts_tokens`).
* `tokens_cover`: the tokens of the data are such tokens, and together they stand for the data.
* `encode_eq_ok`: a buffer that is reported as filled starts with the stream, whatever was in it.
-/

namespace BootLogo.Runs

namespace Token

/-- A token that can be spelled and that stands for something. -/
structure Fit (token : Token) : Prop where
  length_le : token.length ≤ token.kind.maxLength
  shows : token.expand ≠ []

theorem length_expand (token : Token) : token.expand.length = token.outputSize := by
  cases token with
  | literal bytes => rfl
  | byte value count => exact List.length_replicate
  | word b0 b1 b2 b3 count => simp [expand, outputSize, Nat.mul_comm]
  | alpha shared pixels => simp [expand, outputSize, List.map_const', Nat.mul_comm]

theorem means_spell {token : Token} (h : token.length ≤ token.kind.maxLength) :
    Means token.spell token.expand := by
  cases token with
  | literal bytes => exact .literal (spelling_shortest h)
  | byte value count => exact .byte (spelling_shortest h)
  | word b0 b1 b2 b3 count => exact .word (spelling_shortest h)
  | alpha shared pixels => exact .alpha (spelling_shortest h)

theorem exists_chunks {list : List Token} (hfit : ∀ token ∈ list, token.Fit) :
    ∃ chunks : List Chunk, chunks.flatMap Chunk.stored = list.flatMap spell ∧
      chunks.flatMap Chunk.shown = list.flatMap expand ∧ ∀ chunk ∈ chunks, chunk.shown ≠ [] := by
  induction list with
  | nil => exact ⟨[], rfl, rfl, fun chunk hchunk => absurd hchunk List.not_mem_nil⟩
  | cons token list ih =>
    obtain ⟨hhead, htail⟩ := List.forall_mem_cons.1 hfit
    obtain ⟨chunks, hstored, hshown, hshows⟩ := ih htail
    refine ⟨⟨_, _, means_spell hhead.length_le⟩ :: chunks, ?_, ?_, ?_⟩
    · rw [List.flatMap_cons, List.flatMap_cons, hstored]
    · rw [List.flatMap_cons, List.flatMap_cons, hshown]
    · exact List.forall_mem_cons.2 ⟨hhead.shows, hshows⟩

end Token

/-! ## The runs at the front of the data -/

theorem take_byteRun (value : UInt8) (bytes : Bytes) :
    bytes.take (byteRun value bytes) = List.replicate (byteRun value bytes) value := by
  have hrun : byteRun value bytes ≤ (bytes.takeWhile (· = value)).length := Nat.min_le_right _ _
  have hfront : bytes.take (byteRun value bytes) =
      (bytes.takeWhile (· = value)).take (byteRun value bytes) := by
    rw [List.prefix_iff_eq_take.1 (List.takeWhile_prefix (l := bytes) _), List.take_take,
      Nat.min_eq_left hrun]
  rw [hfront]
  refine List.eq_replicate_iff.2 ⟨by rw [List.length_take, Nat.min_eq_left hrun], fun b hb => ?_⟩
  simpa using List.mem_takeWhile_imp (List.mem_of_mem_take hb)

theorem exists_wordCount (b0 b1 b2 b3 : UInt8) (seen : Nat) (bytes : Bytes) :
    ∃ more rest, wordCount b0 b1 b2 b3 seen bytes = seen + more ∧
      bytes = (List.replicate more [b0, b1, b2, b3]).flatten ++ rest := by
  fun_induction wordCount b0 b1 b2 b3 seen bytes with
  | case1 seen c0 c1 c2 c3 bytes hsame ih =>
    obtain ⟨rfl, rfl, rfl, rfl⟩ := hsame
    obtain ⟨more, rest, hcount, rfl⟩ := ih
    refine ⟨more + 1, rest, by omega, ?_⟩
    rw [List.replicate_succ, List.flatten_cons]
    rfl
  | case2 => exact ⟨0, _, rfl, rfl⟩
  | case3 => exact ⟨0, _, rfl, rfl⟩

/-- A repeat that is found fits a token and stands for the front of the data. -/
theorem leadingRepeat?_spec {bytes : Bytes} {token : Token} (h : leadingRepeat? bytes = some token) :
    token.Fit ∧ bytes = token.expand ++ bytes.drop token.outputSize := by
  have hpos := leadingRepeat?_outputSize_pos h
  have hshows : token.expand ≠ [] := by
    rw [← List.length_pos_iff, Token.length_expand]
    exact hpos
  suffices token.length ≤ token.kind.maxLength ∧ ∃ rest, bytes = token.expand ++ rest by
    obtain ⟨hlength, rest, rfl⟩ := this
    refine ⟨⟨hlength, hshows⟩, ?_⟩
    rw [← Token.length_expand, List.drop_left]
  unfold leadingRepeat? at h
  split at h
  · cases h
  · rename_i value rest
    simp only at h
    split at h
    · cases h
      refine ⟨Nat.min_le_left _ _, (value :: rest).drop (byteRun value (value :: rest)), ?_⟩
      rw [Token.expand, ← take_byteRun, List.take_append_drop]
    · split at h
      · rename_i b1 b2 b3 further _
        split at h
        · cases h
          refine ⟨Nat.min_le_left _ _, ?_⟩
          obtain ⟨more, after, hcount, rfl⟩ := exists_wordCount value b1 b2 b3 1 further
          -- all words of the run, of which the token takes as many as it can hold
          have hall : value :: b1 :: b2 :: b3 ::
              ((List.replicate more [value, b1, b2, b3]).flatten ++ after) =
              (List.replicate (1 + more) [value, b1, b2, b3]).flatten ++ after := by
            rw [Nat.add_comm, List.replicate_succ, List.flatten_cons]
            rfl
          rw [hcount, hall]
          obtain ⟨left, hleft⟩ := Nat.exists_eq_add_of_le
            (Nat.min_le_right Kind.word.maxLength (1 + more))
          refine ⟨(List.replicate left [value, b1, b2, b3]).flatten ++ after, ?_⟩
          rw [Token.expand, ← List.append_assoc, ← List.flatten_append, ← List.replicate_add, ← hleft]
        · cases h
      · cases h

/-! ## All tokens -/

theorem literals_spec (bytes : Bytes) :
    (∀ token ∈ literals bytes, token.Fit) ∧ (literals bytes).flatMap Token.expand = bytes := by
  fun_induction literals bytes with
  | case1 => exact ⟨fun token htoken => absurd htoken List.not_mem_nil, rfl⟩
  | case2 bytes hne ih =>
    obtain ⟨hfit, hexpand⟩ := ih
    refine ⟨List.forall_mem_cons.2 ⟨⟨List.length_take_le _ _, ?_⟩, hfit⟩, ?_⟩
    · rw [Token.expand, ne_eq, List.take_eq_nil_iff]
      rintro (hzero | hnil)
      · exact absurd hzero (by decide)
      · exact hne hnil
    · rw [List.flatMap_cons, hexpand, Token.expand, List.take_append_drop]

/-- The tokens that data is cut into, behind the bytes `pending` since the last repeat. -/
inductive Cuts : Bytes → Bytes → List Token → Prop where
  | last (pending : Bytes) : Cuts pending [] (literals pending.reverse)
  | found {pending data : Bytes} {token : Token} {list : List Token}
      (isFront : leadingRepeat? data = some token) (rest : Cuts [] (data.drop token.outputSize) list) :
      Cuts pending data (literals pending.reverse ++ token :: list)
  | passed {pending data : Bytes} {value : UInt8} {list : List Token}
      (rest : Cuts (value :: pending) data list) : Cuts pending (value :: data) list

theorem cuts_cut (done : Array Token) (pending data : Bytes) :
    ∃ list, (cut done pending data).toList = done.toList ++ list ∧ Cuts pending data list := by
  fun_induction cut done pending data with
  | case1 done pending => exact ⟨literals pending.reverse, by simp, .last pending⟩
  | case2 done pending value rest token hrepeat ih =>
    obtain ⟨list, hlist, hcuts⟩ := ih
    refine ⟨literals pending.reverse ++ token :: list, ?_, .found hrepeat hcuts⟩
    simp only [List.unattach_reverse, List.unattach_attach] at hlist
    rw [hlist]
    simp
  | case3 done pending value rest hnone ih =>
    obtain ⟨list, hlist, hcuts⟩ := ih
    exact ⟨list, hlist, .passed hcuts⟩

theorem cuts_tokens (data : Bytes) : Cuts [] data (tokens data) := by
  obtain ⟨list, hlist, hcuts⟩ := cuts_cut #[] [] data
  have htokens : tokens data = list := by simpa [tokens] using hlist
  rwa [htokens]

theorem Cuts.cover {pending data : Bytes} {list : List Token} (h : Cuts pending data list) :
    (∀ token ∈ list, token.Fit) ∧ list.flatMap Token.expand = pending.reverse ++ data := by
  induction h with
  | last pending =>
    obtain ⟨hfit, hexpand⟩ := literals_spec pending.reverse
    exact ⟨hfit, by rw [hexpand, List.append_nil]⟩
  | @found pending data token list hrepeat _ ih =>
    obtain ⟨hfits, hexpands⟩ := ih
    obtain ⟨hfit, hexpand⟩ := literals_spec pending.reverse
    obtain ⟨htoken, hfront⟩ := leadingRepeat?_spec hrepeat
    refine ⟨fun other hother => ?_, ?_⟩
    · rcases List.mem_append.1 hother with hother | hother
      · exact hfit other hother
      · exact List.forall_mem_cons.2 ⟨htoken, hfits⟩ other hother
    · rw [List.flatMap_append, List.flatMap_cons, hexpand, hexpands, List.reverse_nil, List.nil_append,
        ← hfront]
  | passed _ ih =>
    obtain ⟨hfits, hexpands⟩ := ih
    exact ⟨hfits, by rw [hexpands, List.reverse_cons, List.append_assoc, List.singleton_append]⟩

theorem tokens_cover (data : Bytes) :
    (∀ token ∈ tokens data, token.Fit) ∧ (tokens data).flatMap Token.expand = data :=
  (cuts_tokens data).cover

/-! ## Writing the stream -/

theorem stream_eq (data : Bytes) :
    stream data = [0x52, 0x4C, 0x45, 0x2E] ++ Bytes.ofWord data.length ++
      (tokens data).flatMap Token.spell := by
  have hpieces : ∀ list : List Token,
      (list.flatMap Token.pieces).flatMap Piece.bytes = list.flatMap Token.spell := by
    intro list
    rw [List.flatMap_assoc]
    exact List.flatMap_congr fun token _ => by simp [Token.pieces, Piece.bytes, Token.spell]
  rw [stream, pieces, List.flatMap_cons, List.flatMap_cons, hpieces, List.append_assoc]
  rfl

theorem size_append_piece (written : Array UInt8) (piece : Piece) :
    (written ++ piece.bytes).size = written.size + piece.bytes.length := by
  rw [← Array.length_toList, Array.toList_appendList, List.length_append, Array.length_toList]

theorem fit_eq_none {capacity : Nat} {written filled : Array UInt8} {list : List Piece}
    (hsize : written.size ≤ capacity) (h : fit capacity written list = (filled, none)) :
    filled.toList = written.toList ++ list.flatMap Piece.bytes ∧ filled.size ≤ capacity := by
  induction list generalizing written with
  | nil =>
    cases h
    exact ⟨by simp, hsize⟩
  | cons piece list ih =>
    rw [fit] at h
    split at h
    · cases h
    · have hroom : (written ++ piece.bytes).size ≤ capacity := by
        rw [size_append_piece]
        omega
      obtain ⟨hfilled, hfits⟩ := ih hroom h
      exact ⟨by rw [hfilled]; simp, hfits⟩

theorem fit_of_room {capacity : Nat} {written : Array UInt8} {list : List Piece}
    (hroom : written.size + (list.flatMap Piece.bytes).length ≤ capacity) :
    ∃ filled, fit capacity written list = (filled, none) := by
  induction list generalizing written with
  | nil => exact ⟨written, rfl⟩
  | cons piece list ih =>
    rw [List.flatMap_cons, List.length_append] at hroom
    rw [fit, if_neg (by omega)]
    exact ih (by rw [size_append_piece]; omega)

theorem encode_eq_ok {data buffer : Bytes} {size : Nat} (h : (encode data buffer).result = .ok size) :
    data ≠ [] ∧ data.length < wordLimit ∧ size = (stream data).length ∧
      (encode data buffer).buffer = stream data ++ buffer.drop size := by
  unfold encode at h ⊢
  split at h
  · cases h
  · rename_i hne
    split at h
    · cases h
    · rename_i hlimit
      rw [if_neg hne, if_neg hlimit]
      generalize hfit : fit buffer.length #[] (pieces data) = filled at h ⊢
      obtain ⟨filled, shortage⟩ := filled
      cases shortage with
      | some error => cases h
      | none =>
        obtain ⟨hfilled, -⟩ := fit_eq_none (Nat.zero_le _) hfit
        have hstream : filled.toList = stream data := by rw [hfilled, stream, List.nil_append]
        cases h
        have hsize : filled.size = (stream data).length := by rw [← hstream, Array.length_toList]
        refine ⟨hne, Nat.lt_of_not_le hlimit, hsize, ?_⟩
        simp only [Bytes.overwrite, hstream, hsize]

theorem encode_of_room {data buffer : Bytes} (hne : data ≠ []) (hlimit : data.length < wordLimit)
    (hroom : (stream data).length ≤ buffer.length) :
    (encode data buffer).result = .ok (stream data).length := by
  obtain ⟨filled, hfit⟩ := @fit_of_room buffer.length #[] (pieces data) (by simpa [stream] using hroom)
  have hresult : (encode data buffer).result = .ok filled.size := by
    simp only [encode, if_neg hne, if_neg (Nat.not_le.2 hlimit), hfit]
  rw [hresult, (encode_eq_ok hresult).2.2.1]

end BootLogo.Runs
