import BootLogo.Placement
import BootLogo.Proofs.Placement.Factors
import BootLogo.Proofs.Words

/-!
# A placement in machine words

`Placement.compute` counts in numbers without a limit. `Placement.computeInWords` is the same computation in
machine words, each step of which can overflow: sizes have 32 bits, positions 31 and a sign, and a factor is
found in 63 bits and a sign, or in 64, before it is cut to 32. `Placement.computeInWords_eq` says that no
step overflows if the sides of the picture have 16 bits.

* `phaseFactorInWords_eq` holds of every source, target and phase of 32 bits. Whether the factor then fits
  32 bits too is another matter; it does if the side does not shrink.
-/

namespace BootLogo

/-! ## Factors -/

namespace Scaler

/-- The factor of the phase filter, computed in machine words. -/
def phaseFactorInWords (source target phase : Nat) : Option Int :=
  if source = 0 ∨ target ≤ 1 then some 0
  else do
    let lastPixel ← Word.signed (2 ^ 63) (source - 1)
    let steps ← Word.signed (2 ^ 63) (target - 1)
    let eighths ← Word.signed (2 ^ 63) (8 * lastPixel)
    let distance ← Word.signed (2 ^ 63) (eighths - phase)
    let units ← Word.signed (2 ^ 63) (256 * distance)
    let factor := max (units.tdiv steps) 0
    let moved ← Word.signed (2 ^ 63) (factor * steps)
    let start ← Word.signed (2 ^ 63) (256 * phase)
    let fetch ← Word.signed (2 ^ 63) (moved + start)
    if lastPixel < fetch.tdiv 2048 ∧ 0 < factor then Word.signed (2 ^ 63) (factor - 1) else some factor

/-- The factor for an axis, computed in machine words. -/
def factorInWords (scaler : Scaler) (source target : Nat) (axis : Axis) : Option UInt32 :=
  match scaler with
  | .phaseTable => do
    let factor ← Word.unsigned (2 ^ 32) (← phaseFactorInWords source target (startPhase axis))
    return .ofNat factor
  | .ratio =>
    if target = 0 then some 0
    else do
      let product ← Word.unsigned (2 ^ 64) (1048576 * source : Nat)
      let ratio ← Word.unsigned (2 ^ 32) (product / target : Nat)
      return .ofNat ratio

variable {source target phase : Nat}

theorem max_tdiv_eq (eighths phase steps : Nat) :
    max ((256 * ((eighths : Int) - phase)).tdiv steps) 0 =
      ((256 * (eighths - phase) / steps : Nat) : Int) := by
  rcases Nat.le_total phase eighths with hle | hle
  · rw [show 256 * ((eighths : Int) - phase) = ((256 * (eighths - phase) : Nat) : Int) by omega,
      ← Int.ofNat_tdiv]
    exact max_eq_left (Int.natCast_nonneg _)
  · rw [show 256 * ((eighths : Int) - phase) = -((256 * (phase - eighths) : Nat) : Int) by omega,
      Int.neg_tdiv, ← Int.ofNat_tdiv, Nat.sub_eq_zero_of_le hle, Nat.mul_zero, Nat.zero_div]
    exact max_eq_right (Int.neg_nonpos_of_nonneg (Int.natCast_nonneg _))

theorem phaseFactorInWords_eq (hsource : source < 2 ^ 32) (htarget : target < 2 ^ 32)
    (hphase : phase < 2 ^ 32) :
    phaseFactorInWords source target phase = some (phaseFactor source target phase : Int) := by
  unfold phaseFactorInWords phaseFactor
  by_cases hnone : source = 0 ∨ target ≤ 1
  · rw [if_pos hnone, if_pos hnone]
    rfl
  rw [if_neg hnone, if_neg hnone]
  -- only the distance can be negative, and then the factor is zero; all else is a natural number
  obtain ⟨lastPixel, rfl⟩ : ∃ lastPixel, source = lastPixel + 1 := ⟨source - 1, by omega⟩
  obtain ⟨steps, rfl⟩ : ∃ steps, target = steps + 1 := ⟨target - 1, by omega⟩
  have hless (side : Nat) : ((side + 1 : Nat) : Int) - 1 = side := by omega
  rw [hless, hless, Word.bind_eq (Word.signed_eq (by omega)), Word.bind_eq (Word.signed_eq (by omega)),
    Word.bind_eq (Word.signed_eq (by omega)), Word.bind_eq (Word.signed_eq (by omega)),
    Word.bind_eq (Word.signed_eq (by omega))]
  have hquotient := max_tdiv_eq (8 * lastPixel) phase steps
  rw [Nat.cast_mul, Nat.cast_ofNat] at hquotient
  simp only [Nat.add_sub_cancel, hquotient]
  have hmoved : 256 * (8 * lastPixel - phase) / steps * steps ≤ 256 * (8 * lastPixel - phase) :=
    Nat.div_mul_le_self _ _
  have hfactor : 256 * (8 * lastPixel - phase) / steps ≤ 256 * (8 * lastPixel - phase) :=
    Nat.div_le_self _ _
  generalize 256 * (8 * lastPixel - phase) / steps = factor at hmoved hfactor ⊢
  rw [← Nat.cast_mul]
  generalize factor * steps = moved at hmoved ⊢
  have hfetch : ((moved : Int) + 256 * phase).tdiv 2048 = ((moved + 256 * phase) / 2048 : Nat) :=
    (Int.ofNat_tdiv (moved + 256 * phase) 2048).symm
  rw [Word.bind_eq (Word.signed_eq (by omega)), Word.bind_eq (Word.signed_eq (by omega)),
    Word.bind_eq (Word.signed_eq (by omega)), hfetch]
  by_cases hover : lastPixel < (moved + 256 * phase) / 2048 ∧ 0 < factor
  · rw [if_pos hover, if_pos (by omega), Word.signed_eq (by omega), Nat.cast_pred hover.2]
    rfl
  · rw [if_neg hover, if_neg (by omega)]

theorem factorInWords_eq (scaler : Scaler) (hle : source ≤ target) (htarget : target < 2 ^ 32) (axis : Axis) :
    scaler.factorInWords source target axis = some (scaler.factor source target axis) := by
  have hsource : source < 2 ^ 32 := hle.trans_lt htarget
  cases scaler with
  | phaseTable =>
    have hphase : startPhase axis < 2 ^ 32 := startPhase_eq axis ▸ (by decide : 4 < 2 ^ 32)
    have hfactor := phaseFactor_le hle (startPhase axis)
    rw [factorInWords, factor, Word.bind_eq (phaseFactorInWords_eq hsource htarget hphase),
      Word.bind_eq (Word.unsigned_eq (by omega))]
    rfl
  | ratio =>
    rw [factorInWords, factor]
    split
    · rename_i hzero
      rw [ratioFactor, hzero, Nat.div_zero]
      rfl
    · have hratio : ratioFactor source target ≤ 2 ^ 20 := ratioFactor_le hle
      rw [ratioFactor] at hratio ⊢
      rw [Word.bind_eq (Word.unsigned_eq (by omega)), Word.bind_eq (Word.unsigned_eq (by omega))]
      rfl

end Scaler

/-! ## Sizes and positions -/

/-- `scaledSize`, computed in machine words. -/
def scaledSizeInWords (size : Size) (scale : UInt8) : Option Size :=
  if scale = 0 then some size
  else do
    let eighths ← Word.unsigned (2 ^ 32) (8 + scale.toNat : Nat)
    let width ← Word.unsigned (2 ^ 32) (size.width * eighths : Nat)
    let height ← Word.unsigned (2 ^ 32) (size.height * eighths : Nat)
    return ⟨width / 8, height / 8⟩

/-- `centre`, computed in machine words. -/
def centreInWords (panel scaled : Nat) : Option Int :=
  if panel ≤ scaled then some 0
  else do
    let margin ← Word.unsigned (2 ^ 32) (panel - scaled)
    Word.signed (2 ^ 31) (margin / 2 : Nat)

/-- The factors of both axes, computed in machine words; none are needed without scaling. -/
def Scaler.factorsInWords (scaler : Scaler) (image scaled : Size) : Option (UInt32 × UInt32) :=
  if scaled ≠ image then do
    let x ← scaler.factorInWords image.width scaled.width .horizontal
    let y ← scaler.factorInWords image.height scaled.height .vertical
    return (x, y)
  else some (0, 0)

/-- A placement, computed in machine words. -/
def Placement.computeInWords (image panel : Size) (scale : UInt8) (scaler : Scaler) : Option Placement := do
  let scaled ← scaledSizeInWords image scale
  let (xFactor, yFactor) ← scaler.factorsInWords image scaled
  let x ← centreInWords panel.width scaled.width
  let y ← centreInWords panel.height scaled.height
  return ⟨image, scaled, x, y, xFactor, yFactor, scaled ≠ image⟩

theorem scaledSize_eq (size : Size) (scale : UInt8) :
    scaledSize size scale = ⟨size.width * (8 + scale.toNat) / 8, size.height * (8 + scale.toNat) / 8⟩ := by
  unfold scaledSize
  split
  · -- without a scale the eighths cancel
    rename_i hscale
    rw [hscale, UInt8.toNat_zero, Nat.add_zero, Nat.mul_div_cancel _ (by decide),
      Nat.mul_div_cancel _ (by decide)]
  · rfl

theorem le_scaledSide (side eighths : Nat) : side ≤ side * (8 + eighths) / 8 := by
  rw [Nat.le_div_iff_mul_le (by decide)]
  exact Nat.mul_le_mul_left side (Nat.le_add_right 8 eighths)

theorem scaledSide_lt {side : Nat} (hside : side < 2 ^ 16) (scale : UInt8) :
    side * (8 + scale.toNat) < 2 ^ 32 := by
  have hscale : scale.toNat < 2 ^ 8 := scale.toNat_lt
  calc side * (8 + scale.toNat) ≤ 2 ^ 16 * 2 ^ 9 := Nat.mul_le_mul hside.le (by omega)
    _ < 2 ^ 32 := by decide

theorem scaledSizeInWords_eq {size : Size} (hwidth : size.width < 2 ^ 16) (hheight : size.height < 2 ^ 16)
    (scale : UInt8) : scaledSizeInWords size scale = some (scaledSize size scale) := by
  have hscale : scale.toNat < 2 ^ 8 := scale.toNat_lt
  unfold scaledSizeInWords scaledSize
  split
  · rfl
  · rw [Word.bind_eq (Word.unsigned_eq (by omega)),
      Word.bind_eq (Word.unsigned_eq (scaledSide_lt hwidth scale)),
      Word.bind_eq (Word.unsigned_eq (scaledSide_lt hheight scale))]
    rfl

theorem centreInWords_eq {panel : Nat} (hpanel : panel < 2 ^ 32) (scaled : Nat) :
    centreInWords panel scaled = some (centre panel scaled) := by
  unfold centreInWords centre
  split
  · rename_i hle
    rw [Nat.sub_eq_zero_of_le hle]
    rfl
  · rename_i hlt
    rw [← Nat.cast_sub (Nat.le_of_not_le hlt), Word.bind_eq (Word.unsigned_eq (by omega)),
      Word.signed_eq (by omega)]
    rfl

theorem Scaler.factorsInWords_eq (scaler : Scaler) {image : Size} (hwidth : image.width < 2 ^ 16)
    (hheight : image.height < 2 ^ 16) (scale : UInt8) :
    let scaled := scaledSize image scale
    scaler.factorsInWords image scaled = some
      (if scaled ≠ image then scaler.factor image.width scaled.width .horizontal else 0,
        if scaled ≠ image then scaler.factor image.height scaled.height .vertical else 0) := by
  intro scaled
  have hfactor {side : Nat} (hside : side < 2 ^ 16) (axis : Axis) :
      scaler.factorInWords side (side * (8 + scale.toNat) / 8) axis =
        some (scaler.factor side (side * (8 + scale.toNat) / 8) axis) :=
    scaler.factorInWords_eq (le_scaledSide side scale.toNat)
      ((Nat.div_le_self _ 8).trans_lt (scaledSide_lt hside scale)) axis
  have hscaled : scaled = ⟨image.width * (8 + scale.toNat) / 8, image.height * (8 + scale.toNat) / 8⟩ :=
    scaledSize_eq image scale
  rw [factorsInWords]
  by_cases hscaling : scaled ≠ image
  · rw [if_pos hscaling, if_pos hscaling, if_pos hscaling, hscaled,
      Word.bind_eq (hfactor hwidth _), Word.bind_eq (hfactor hheight _)]
    rfl
  · rw [if_neg hscaling, if_neg hscaling, if_neg hscaling]

/-- **No step of a placement overflows** if the sides of the picture have 16 bits and those of the panel 32. -/
theorem Placement.computeInWords_eq {image panel : Size} (hwidth : image.width < 2 ^ 16)
    (hheight : image.height < 2 ^ 16) (hpanelWidth : panel.width < 2 ^ 32)
    (hpanelHeight : panel.height < 2 ^ 32) (scale : UInt8) (scaler : Scaler) :
    computeInWords image panel scale scaler = some (compute image panel scale scaler) := by
  rw [computeInWords, Word.bind_eq (scaledSizeInWords_eq hwidth hheight scale),
    Word.bind_eq (scaler.factorsInWords_eq hwidth hheight scale)]
  dsimp only
  rw [Word.bind_eq (centreInWords_eq hpanelWidth _),
    Word.bind_eq (centreInWords_eq hpanelHeight _)]
  rfl

end BootLogo
