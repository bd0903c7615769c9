import BootLogo.Runs.Header
import Mathlib.Tactic.Ring

/-!
# How token headers are spelled

`Spelling header bytes` is the grammar of token headers: the first byte names the kind and holds the top
of the length, each further byte adds seven bits, and every byte but the last announces another one. The
fourth byte is the last whatever it announces.

* `parse?_eq_some_iff`: reading accepts exactly the spelled headers, whatever follows them.
* `spelling_shortest`: the shortest spelling is one, up to the greatest length of the kind.
-/

namespace BootLogo.Runs

/-- The kind that bits 4 to 6 of the first byte stand for. -/
def Kind.announced (first : UInt8) : Kind :=
  let flags := first.toNat / 16 % 8
  if flags < 4 then .literal
  else if flags = 4 then .byte
  else if flags = 5 then .alpha
  else .word

/-- The bytes after one that announced another, at most `room` of them. -/
inductive Extension : Nat → Bytes → Prop where
  /-- There is no room for the byte that was announced. -/
  | full : Extension 0 []
  | last {room : Nat} {b : UInt8} (final : b.toNat < 128) : Extension (room + 1) [b]
  | more {room : Nat} {b : UInt8} {rest : Bytes} (announces : 128 ≤ b.toNat)
      (extension : Extension room rest) : Extension (room + 1) (b :: rest)

/-- The number that `top` and seven bits of each byte make. -/
def extended (top : Nat) (more : Bytes) : Nat :=
  more.foldl (fun length b => 128 * length + b.toNat % 128) top

/-- The bytes spell the header. -/
inductive Spelling : Header → Bytes → Prop where
  | short {first : UInt8} (final : first.toNat < 128) :
      Spelling ⟨.announced first, first.toNat % (Kind.announced first).topRange, 1⟩ [first]
  | long {first : UInt8} {more : Bytes} (announces : 128 ≤ first.toNat)
      (extension : Extension 3 more) :
      Spelling ⟨.announced first, extended (first.toNat % (Kind.announced first).topRange) more,
        more.length + 1⟩ (first :: more)

theorem Spelling.size_eq {header : Header} {bytes : Bytes} (h : Spelling header bytes) :
    header.size = bytes.length := by
  cases h with
  | short _ => rfl
  | long _ _ => rfl

/-! ## Reading -/

theorem testBit_seven (b : UInt8) : b.toNat.testBit 7 = decide (128 ≤ b.toNat) := by
  have hb := b.toNat_lt
  rw [Nat.testBit_eq_decide_div_mod_eq]
  congr 1
  apply propext
  omega

theorem ofByte_eq_announced (first : UInt8) : Kind.ofByte first = .announced first := by
  -- bits 6, 5 and 4 are the digits of the number that names the kind
  have hdigits : first.toNat / 16 % 8 =
      4 * (first.toNat / 64 % 2) + 2 * (first.toNat / 32 % 2) + first.toNat / 16 % 2 := by omega
  simp only [Kind.ofByte, Kind.announced, Nat.testBit_eq_decide_div_mod_eq, Nat.reducePow,
    Bool.not_eq_true', decide_eq_false_iff_not, decide_eq_true_eq, hdigits]
  split_ifs
  all_goals first | rfl | omega

theorem extend?_eq_some {room length total taken : Nat} {bytes : Bytes}
    (h : Header.extend? room length bytes = some (total, taken)) :
    ∃ more rest, bytes = more ++ rest ∧ Extension room more ∧ total = extended length more ∧
      taken = more.length := by
  induction room generalizing length bytes total taken with
  | zero =>
    cases h
    exact ⟨[], bytes, rfl, .full, rfl, rfl⟩
  | succ room ih =>
    cases bytes with
    | nil => cases h
    | cons b rest =>
      simp only [Header.extend?, testBit_seven, decide_eq_true_eq] at h
      split at h
      · rename_i hb
        obtain ⟨⟨total', taken'⟩, hrest, heq⟩ := Option.map_eq_some_iff.1 h
        cases heq
        obtain ⟨more, after, rfl, hmore, htotal, htaken⟩ := ih hrest
        refine ⟨b :: more, after, rfl, .more hb hmore, ?_, ?_⟩
        · rw [htotal, extended, extended, List.foldl_cons, Nat.mul_comm length]
        · rw [htaken, List.length_cons]
      · rename_i hb
        cases h
        refine ⟨[b], rest, rfl, .last (by omega), ?_, rfl⟩
        rw [extended, List.foldl_cons, List.foldl_nil, Nat.mul_comm length]

theorem extend?_append {room : Nat} {more : Bytes} (hmore : Extension room more) (length : Nat)
    (rest : Bytes) :
    Header.extend? room length (more ++ rest) = some (extended length more, more.length) := by
  induction hmore generalizing length with
  | full => rfl
  | last hb =>
    rw [List.cons_append, List.nil_append, Header.extend?, testBit_seven, decide_eq_false (by omega),
      extended, List.foldl_cons, List.foldl_nil, Nat.mul_comm 128]
    rfl
  | more hb _ ih =>
    rw [List.cons_append, Header.extend?, testBit_seven, decide_eq_true hb, if_pos rfl, ih,
      extended, extended, List.foldl_cons, Nat.mul_comm length]
    rfl

theorem parse?_eq_some_iff {bytes : Bytes} {header : Header} :
    Header.parse? bytes = some header ↔
      ∃ spelled rest, bytes = spelled ++ rest ∧ Spelling header spelled := by
  constructor
  · intro h
    cases bytes with
    | nil => cases h
    | cons first rest =>
      simp only [Header.parse?, testBit_seven, decide_eq_true_eq, ofByte_eq_announced] at h
      split at h
      · rename_i hfirst
        obtain ⟨⟨total, taken⟩, hrest, rfl⟩ := Option.map_eq_some_iff.1 h
        obtain ⟨more, after, rfl, hmore, rfl, rfl⟩ := extend?_eq_some hrest
        exact ⟨first :: more, after, rfl, .long hfirst hmore⟩
      · rename_i hfirst
        cases h
        exact ⟨[first], rest, rfl, .short (by omega)⟩
  · rintro ⟨spelled, rest, rfl, hspelled⟩
    cases hspelled with
    | short hfirst =>
      rw [List.cons_append, List.nil_append, Header.parse?, testBit_seven, decide_eq_false (by omega),
        ofByte_eq_announced]
      rfl
    | long hfirst hmore =>
      rw [List.cons_append, Header.parse?, testBit_seven, decide_eq_true hfirst, if_pos rfl,
        extend?_append hmore, ofByte_eq_announced]
      rfl

/-! ## The shortest spelling -/

theorem toNat_ofNat_of_lt {value : Nat} (h : value < 256) : (UInt8.ofNat value).toNat = value := by
  rw [UInt8.toNat_ofNat']
  exact Nat.mod_eq_of_lt h

theorem extension_groups {room count : Nat} (hcount : count + 1 ≤ room) (length : Nat) :
    Extension room (Header.groups (count + 1) length) := by
  induction count generalizing room with
  | zero =>
    obtain ⟨room, rfl⟩ : ∃ r, room = r + 1 := ⟨room - 1, by omega⟩
    refine .last ?_
    rw [if_pos rfl, toNat_ofNat_of_lt (by omega)]
    omega
  | succ count ih =>
    obtain ⟨room, rfl⟩ : ∃ r, room = r + 1 := ⟨room - 1, by omega⟩
    refine .more ?_ (ih (by omega))
    rw [if_neg (Nat.succ_ne_zero count), toNat_ofNat_of_lt (by omega)]
    omega

theorem extended_groups (top count length : Nat) :
    extended top (Header.groups count length) = top * 128 ^ count + length % 128 ^ count := by
  induction count generalizing top with
  | zero => simp [extended, Header.groups, Nat.mod_one]
  | succ count ih =>
    have hgroup : ∀ more : Nat, (more = 0 ∨ more = 128) →
        (UInt8.ofNat (more + length / 128 ^ count % 128)).toNat % 128 = length / 128 ^ count % 128 := by
      intro more hmore
      rw [toNat_ofNat_of_lt (by omega)]
      omega
    have hstep := ih (128 * top + length / 128 ^ count % 128)
    rw [extended] at hstep ⊢
    rw [Header.groups, List.foldl_cons, Nat.pow_eq, hgroup _ (by split <;> simp), hstep,
      Nat.mod_pow_succ]
    ring

theorem shortest_top {kind : Kind} {length : Nat} (h : length ≤ kind.maxLength) :
    ∃ further ≤ 3, Header.shortestSize kind length - 1 = further ∧
      length / 128 ^ further < kind.topRange := by
  unfold Kind.maxLength at h
  have hrange : 0 < kind.topRange := by cases kind <;> decide
  unfold Header.shortestSize
  split_ifs with h1 h2 h3
  · exact ⟨0, by omega, rfl, by simpa using h1⟩
  · exact ⟨1, by omega, rfl, by rw [Nat.div_lt_iff_lt_mul (by decide)]; omega⟩
  · exact ⟨2, by omega, rfl, by rw [Nat.div_lt_iff_lt_mul (by decide)]; omega⟩
  · exact ⟨3, by omega, rfl, by rw [Nat.div_lt_iff_lt_mul (by decide)]; omega⟩

theorem first_byte (kind : Kind) {more top : Nat} (hmore : more = 0 ∨ more = 128)
    (htop : top < kind.topRange) :
    (UInt8.ofNat (kind.flags + more + top)).toNat = kind.flags + more + top ∧
      Kind.announced (UInt8.ofNat (kind.flags + more + top)) = kind ∧
      (kind.flags + more + top) % kind.topRange = top := by
  have hvalue : (UInt8.ofNat (kind.flags + more + top)).toNat = kind.flags + more + top := by
    refine toNat_ofNat_of_lt ?_
    cases kind <;> simp only [Kind.flags, Kind.topRange] at htop ⊢ <;> omega
  refine ⟨hvalue, ?_, ?_⟩
  · rw [Kind.announced, hvalue]
    cases kind with
    | literal =>
      have hflags : (Kind.literal.flags + more + top) / 16 % 8 < 4 := by
        simp only [Kind.flags, Kind.topRange] at htop ⊢
        omega
      exact if_pos hflags
    | byte =>
      have hflags : (Kind.byte.flags + more + top) / 16 % 8 = 4 := by
        simp only [Kind.flags, Kind.topRange] at htop ⊢
        omega
      rw [hflags]
      rfl
    | word =>
      have hflags : (Kind.word.flags + more + top) / 16 % 8 = 6 := by
        simp only [Kind.flags, Kind.topRange] at htop ⊢
        omega
      rw [hflags]
      rfl
    | alpha =>
      have hflags : (Kind.alpha.flags + more + top) / 16 % 8 = 5 := by
        simp only [Kind.flags, Kind.topRange] at htop ⊢
        omega
      rw [hflags]
      rfl
  · cases kind <;> simp only [Kind.flags, Kind.topRange] at htop ⊢ <;> omega

theorem spelling_shortest {kind : Kind} {length : Nat} (h : length ≤ kind.maxLength) :
    Spelling ⟨kind, length, (Header.shortest kind length).length⟩ (Header.shortest kind length) := by
  obtain ⟨further, hfurther, hsize, htop⟩ := shortest_top h
  have hmod : length / 128 ^ further % kind.topRange = length / 128 ^ further := Nat.mod_eq_of_lt htop
  have hlength : length / 128 ^ further * 128 ^ further + length % 128 ^ further = length :=
    Nat.div_add_mod' length (128 ^ further)
  simp only [Header.shortest, hsize, Nat.pow_eq, hmod]
  cases further with
  | zero =>
    obtain ⟨hvalue, hkind, hrest⟩ := first_byte kind (Or.inl rfl) htop
    have hshort := @Spelling.short (UInt8.ofNat (kind.flags + 0 + length / 128 ^ 0)) (by
      rw [hvalue]
      cases kind <;> simp only [Kind.flags, Kind.topRange] at htop ⊢ <;> omega)
    rw [hkind, hvalue, hrest] at hshort
    simpa [Header.groups] using hshort
  | succ further =>
    obtain ⟨hvalue, hkind, hrest⟩ := first_byte kind (Or.inr rfl) htop
    have hlong := @Spelling.long (UInt8.ofNat (kind.flags + 128 + length / 128 ^ (further + 1))) _
      (by rw [hvalue]; omega) (extension_groups hfurther length)
    rw [hkind, hvalue, hrest, extended_groups, hlength] at hlong
    rw [if_neg (Nat.succ_ne_zero further)]
    exact hlong

end BootLogo.Runs
