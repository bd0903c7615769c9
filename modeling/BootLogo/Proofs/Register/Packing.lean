import BootLogo.Register.Field
import Mathlib.Tactic.Ring

/-!
# Reading bit fields back

* `bits start width word`: the number in `width` bits of a word, from bit `start` on.
* `toNat_and_mask`, `toNat_shift_and_mask`: a field at bit 0 or at bit 16 holds a number up to its width.
* `toNat_mask_shift`: the same for a number that is cut first and then put into its place.
* `bits_or`: two fields that do not overlap are read back from one word; `bits_masks`: two fields of one width
  that were cut by their masks.
* `bits_size`, `bits_pos`: the sizes and positions of a layer.
* `bits_or_clkdiv`: the divider beside what else a word holds.
-/

namespace BootLogo.Field

def bits (start width : Nat) (word : UInt32) : Nat := word.toNat / 2 ^ start % 2 ^ width

theorem toNat_and_mask {width : Nat} {mask : UInt32} (hmask : mask.toNat = 2 ^ width - 1)
    (x : UInt32) : (x &&& mask).toNat = x.toNat % 2 ^ width := by
  rw [UInt32.toNat_and, hmask, Nat.and_two_pow_sub_one_eq_mod]

theorem toNat_shift_and_mask {width : Nat} {mask : UInt32} (hwidth : width ≤ 16)
    (hmask : mask.toNat = (2 ^ width - 1) * 2 ^ 16) (x : UInt32) :
    ((x <<< (16 : UInt32)) &&& mask).toNat = x.toNat % 2 ^ width * 2 ^ 16 := by
  -- what the shift drops lies above the mask
  have hshift : (x <<< (16 : UInt32)).toNat = (x.toNat % 2 ^ 16) <<< 16 := by
    rw [UInt32.toNat_shiftLeft, Nat.shiftLeft_eq, Nat.shiftLeft_eq, show 2 ^ 32 = 2 ^ 16 * 2 ^ 16 from rfl]
    exact Nat.mul_mod_mul_right (2 ^ 16) x.toNat (2 ^ 16)
  rw [UInt32.toNat_and, hshift, hmask, ← Nat.shiftLeft_eq, ← Nat.shiftLeft_and_distrib,
    Nat.and_two_pow_sub_one_eq_mod, Nat.shiftLeft_eq,
    Nat.mod_mod_of_dvd _ (Nat.pow_dvd_pow 2 hwidth)]

theorem toNat_mask_shift {width : Nat} {mask : UInt32} (hwidth : width ≤ 16)
    (hmask : mask.toNat = 2 ^ width - 1) (x : UInt32) :
    ((x &&& mask) <<< (16 : UInt32)).toNat = x.toNat % 2 ^ width * 2 ^ 16 := by
  have hlt : x.toNat % 2 ^ width * 2 ^ 16 < 2 ^ 32 := by
    have hpow : 2 ^ width ≤ 2 ^ 16 := Nat.pow_le_pow_right (by decide) hwidth
    have hmod : x.toNat % 2 ^ width < 2 ^ width := Nat.mod_lt _ (Nat.two_pow_pos width)
    omega
  rw [UInt32.toNat_shiftLeft, Nat.shiftLeft_eq, toNat_and_mask hmask]
  exact Nat.mod_eq_of_lt hlt

theorem toNat_or_of_lt {high low : UInt32} {h : Nat} (hhigh : high.toNat = h * 2 ^ 16)
    (hlow : low.toNat < 2 ^ 16) : (high ||| low).toNat = h * 2 ^ 16 + low.toNat := by
  rw [UInt32.toNat_or, hhigh, Nat.mul_comm, Nat.two_pow_add_eq_or_of_lt hlow]

theorem bits_or {width h l : Nat} {high low : UInt32} (hwidth : width ≤ 16)
    (hhigh : high.toNat = h % 2 ^ width * 2 ^ 16) (hlow : low.toNat = l % 2 ^ width) :
    bits 0 width (high ||| low) = l % 2 ^ width ∧ bits 16 width (high ||| low) = h % 2 ^ width := by
  have hpow : 2 ^ width ≤ 2 ^ 16 := Nat.pow_le_pow_right (by decide) hwidth
  have hl : l % 2 ^ width < 2 ^ 16 := Nat.lt_of_lt_of_le (Nat.mod_lt _ (Nat.two_pow_pos width)) hpow
  have hword := toNat_or_of_lt hhigh (by rw [hlow]; exact hl)
  rw [hlow] at hword
  constructor
  · obtain ⟨q, hq⟩ := Nat.pow_dvd_pow 2 hwidth
    rw [bits, hword, Nat.pow_zero, Nat.div_one, hq]
    rw [show h % 2 ^ width * (2 ^ width * q) = 2 ^ width * (h % 2 ^ width * q) by ring,
      Nat.mul_add_mod, Nat.mod_mod]
  · rw [bits, hword, Nat.mul_comm, Nat.mul_add_div (Nat.two_pow_pos 16), Nat.div_eq_of_lt hl, Nat.add_zero,
      Nat.mod_mod]

theorem bits_masks {width : Nat} {highMask lowMask : UInt32} (hwidth : width ≤ 16)
    (hhigh : highMask.toNat = (2 ^ width - 1) * 2 ^ 16) (hlow : lowMask.toNat = 2 ^ width - 1)
    (high low : UInt32) :
    bits 0 width (((high <<< (16 : UInt32)) &&& highMask) ||| (low &&& lowMask)) = low.toNat % 2 ^ width ∧
      bits 16 width (((high <<< (16 : UInt32)) &&& highMask) ||| (low &&& lowMask)) =
        high.toNat % 2 ^ width :=
  bits_or hwidth (toNat_shift_and_mask hwidth hhigh high) (toNat_and_mask hlow low)

theorem bits_pos_eq_mod (x y : UInt32) :
    bits 0 11 (pos x y) = x.toNat % 2 ^ 11 ∧ bits 16 11 (pos x y) = y.toNat % 2 ^ 11 := by
  have hmask : (0x7FF : UInt32).toNat = 2 ^ 11 - 1 := by decide
  have hword : pos x y = ((y &&& 0x7FF) <<< (16 : UInt32)) ||| (x &&& 0x7FF) := UInt32.or_comm _ _
  rw [hword]
  exact bits_or (by decide) (toNat_mask_shift (by decide) hmask y) (toNat_and_mask hmask x)

theorem bits_size {width height : Nat} (hwidth : 0 < width) (hheight : 0 < height)
    (hwidthLimit : width ≤ 2 ^ 11) (hheightLimit : height ≤ 2 ^ 11) :
    bits 0 11 (size (.ofNat width) (.ofNat height)) + 1 = width ∧
      bits 16 11 (size (.ofNat width) (.ofNat height)) + 1 = height := by
  have hless {side : Nat} (hpos : 0 < side) (hlimit : side ≤ 2 ^ 11) :
      (UInt32.ofNat side - 1).toNat % 2 ^ 11 = side - 1 := by
    have hside : (UInt32.ofNat side).toNat = side := by
      rw [UInt32.toNat_ofNat']
      exact Nat.mod_eq_of_lt (by omega)
    have hone : (1 : UInt32) ≤ .ofNat side := by
      rw [UInt32.le_iff_toNat_le, hside]
      exact hpos
    rw [UInt32.toNat_sub_of_le _ _ hone, hside]
    exact Nat.mod_eq_of_lt (by show side - 1 < 2 ^ 11; omega)
  obtain ⟨hlow, hhigh⟩ := bits_pos_eq_mod (UInt32.ofNat width - 1) (UInt32.ofNat height - 1)
  have hword : size (.ofNat width) (.ofNat height) = pos (.ofNat width - 1) (.ofNat height - 1) := rfl
  rw [hword, hlow, hhigh, hless hwidth hwidthLimit, hless hheight hheightLimit]
  omega

theorem bits_pos {x y : Nat} (hx : x < 2 ^ 11) (hy : y < 2 ^ 11) :
    bits 0 11 (pos (.ofInt x) (.ofInt y)) = x ∧ bits 16 11 (pos (.ofInt x) (.ofInt y)) = y := by
  have hword {offset : Nat} (hoffset : offset < 2 ^ 11) :
      (UInt32.ofInt offset).toNat % 2 ^ 11 = offset := by
    rw [UInt32.ofInt, UInt32.toNat_ofNat']
    omega
  obtain ⟨hlow, hhigh⟩ := bits_pos_eq_mod (.ofInt x) (.ofInt y)
  exact ⟨hlow.trans (hword hx), hhigh.trans (hword hy)⟩

theorem bits_or_eq_or (start width : Nat) (x y : UInt32) :
    bits start width (x ||| y) = bits start width x ||| bits start width y := by
  apply Nat.eq_of_testBit_eq
  intro index
  simp only [bits, UInt32.toNat_or, Nat.testBit_mod_two_pow, Nat.testBit_or, Nat.testBit_div_two_pow]
  cases decide (index < width) <;> simp

theorem toNat_clkdiv (x : UInt32) : (clkdiv x).toNat = x.toNat % 2 ^ 8 * 2 ^ 16 :=
  toNat_shift_and_mask (by decide) (by decide) x

theorem bits_or_clkdiv (word : UInt32) {stored : Nat} (h : stored < 2 ^ 8) :
    bits 16 8 (word ||| clkdiv (.ofNat stored)) = bits 16 8 word ||| stored ∧
      ∀ index, ¬ (16 ≤ index ∧ index < 24) →
        (word ||| clkdiv (.ofNat stored)).toNat.testBit index = word.toNat.testBit index := by
  have hfield : (clkdiv (.ofNat stored)).toNat = stored * 2 ^ 16 := by
    rw [toNat_clkdiv, UInt32.toNat_ofNat']
    omega
  constructor
  · rw [bits_or_eq_or]
    congr 1
    rw [bits, hfield, Nat.mul_div_cancel _ (Nat.two_pow_pos 16), Nat.mod_eq_of_lt h]
  · intro index hindex
    have hother : (stored * 2 ^ 16).testBit index = false := by
      rw [← Nat.shiftLeft_eq, Nat.testBit_shiftLeft]
      by_cases hlow : 16 ≤ index
      · have hpow : 2 ^ 8 ≤ 2 ^ (index - 16) := Nat.pow_le_pow_right (by decide) (by omega)
        rw [Nat.testBit_lt_two_pow (h.trans_le hpow), Bool.and_false]
      · rw [decide_eq_false hlow, Bool.false_and]
    rw [UInt32.toNat_or, Nat.testBit_or, hfield, hother, Bool.or_false]

end BootLogo.Field
