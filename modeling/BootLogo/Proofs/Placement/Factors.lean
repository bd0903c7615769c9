import BootLogo.Panel
import BootLogo.Proofs.Register.Packing
import BootLogo.Scaler
import Mathlib.Order.Bounds.Basic

/-!
# Factors that stay inside the source

A factor says how far the scaler moves on in the source from one pixel of the target to the next. Pixel `j`
of the target is fetched at `factor * j`, from the start phase on; nothing may be fetched past the last
pixel of the source.

* `inside`: the factors of the phase filter whose last fetch is inside the source. `phaseFactor_isGreatest`
  says that the one that is chosen is the greatest of them, so there is never one too much to take back
  (`phaseFactor_eq`).
* `ratio_fetch_le`: the same of the plain ratio, which starts at the first pixel.
* `phaseFactor_le`, `ratioFactor_le`: a factor of a side that grows is at most one pixel for a pixel.
* `bits_scaleEnable_or`: the word of two factors is read back.
* `factors_stay_inside` puts them together.
-/

namespace BootLogo

/-- A side that may be scaled on a layer: it does not shrink, and the target has a first and a last pixel. -/
structure Enlarges (source target : Nat) : Prop where
  pos : 1 ≤ source
  le : source ≤ target
  two_le : 2 ≤ target
  fits : target ≤ Panel.activeLimit

namespace Scaler

/-- The factors with which the last fetch of the phase filter is inside the source. -/
def inside (source target phase : Nat) : Set Nat :=
  {candidate | candidate * (target - 1) + 256 * phase ≤ 2048 * (source - 1)}

variable {source target phase candidate : Nat}

/-! ## The phase filter -/

theorem startPhase_eq (axis : Axis) : startPhase axis = 4 := by
  cases axis <;> rfl

theorem mem_inside_iff (htarget : 2 ≤ target) (hphase : phase ≤ 8 * (source - 1)) :
    candidate ∈ inside source target phase ↔
      candidate ≤ 256 * (8 * (source - 1) - phase) / (target - 1) := by
  rw [Nat.le_div_iff_mul_le (Nat.sub_pos_of_lt htarget), inside, Set.mem_ofPred_eq]
  omega

theorem inside_eq_empty (hphase : 8 * (source - 1) < phase) : inside source target phase = ∅ := by
  refine Set.eq_empty_of_forall_notMem fun candidate hcandidate => ?_
  rw [inside, Set.mem_ofPred_eq] at hcandidate
  omega

theorem fetch_le (hinside : candidate ∈ inside source target phase) {j : Nat} (hj : j < target) :
    (candidate * j + 256 * phase) / 2048 ≤ source - 1 := by
  have hstep : candidate * j ≤ candidate * (target - 1) :=
    Nat.mul_le_mul_left candidate (Nat.le_sub_one_of_lt hj)
  rw [inside, Set.mem_ofPred_eq] at hinside
  exact Nat.div_le_of_le_mul ((Nat.add_le_add_right hstep _).trans hinside)

/-- The factor is the plain quotient, since its last fetch is inside the source already. -/
theorem phaseFactor_eq (hsource : 1 ≤ source) (htarget : 2 ≤ target) (phase : Nat) :
    phaseFactor source target phase = 256 * (8 * (source - 1) - phase) / (target - 1) := by
  rw [phaseFactor, if_neg (by omega)]
  refine if_neg fun ⟨hlast, hpos⟩ => ?_
  rcases Nat.lt_or_ge (8 * (source - 1)) phase with hphase | hphase
  · -- the first fetch is outside already, and the factor is zero
    rw [Nat.sub_eq_zero_of_le hphase.le, Nat.mul_zero, Nat.zero_div] at hpos
    exact hpos.false
  · exact hlast.not_ge (fetch_le ((mem_inside_iff htarget hphase).2 le_rfl) (Nat.sub_one_lt_of_lt htarget))

theorem phaseFactor_isGreatest (hsource : 1 ≤ source) (htarget : 2 ≤ target)
    (hphase : phase ≤ 8 * (source - 1)) :
    IsGreatest (inside source target phase) (phaseFactor source target phase) := by
  rw [phaseFactor_eq hsource htarget]
  exact ⟨(mem_inside_iff htarget hphase).2 le_rfl, fun _ => (mem_inside_iff htarget hphase).1⟩

theorem phaseFactor_eq_zero (hsource : 1 ≤ source) (htarget : 2 ≤ target)
    (hphase : 8 * (source - 1) < phase) : phaseFactor source target phase = 0 := by
  rw [phaseFactor_eq hsource htarget, Nat.sub_eq_zero_of_le hphase.le, Nat.mul_zero, Nat.zero_div]

theorem phaseFactor_le (hle : source ≤ target) (phase : Nat) : phaseFactor source target phase ≤ 2048 := by
  by_cases hnone : source = 0 ∨ target ≤ 1
  · rw [phaseFactor, if_pos hnone]
    exact Nat.zero_le _
  · rw [phaseFactor_eq (by omega) (by omega)]
    exact Nat.div_le_of_le_mul (by omega)

/-! ## The plain ratio -/

theorem ratio_fetch_le (source : Nat) {j : Nat} (hj : j < target) :
    ratioFactor source target * j / 2 ^ 20 ≤ source - 1 := by
  rcases Nat.eq_zero_or_pos (ratioFactor source target) with hzero | hpos
  · rw [hzero, Nat.zero_mul, Nat.zero_div]
    exact Nat.zero_le _
  · have hlt : ratioFactor source target * j < source * 2 ^ 20 := by
      calc ratioFactor source target * j < ratioFactor source target * target :=
            Nat.mul_lt_mul_of_pos_left hj hpos
        _ ≤ 2 ^ 20 * source := Nat.div_mul_le_self _ _
        _ = source * 2 ^ 20 := Nat.mul_comm _ _
    exact Nat.le_sub_one_of_lt ((Nat.div_lt_iff_lt_mul (Nat.two_pow_pos 20)).2 hlt)

theorem ratioFactor_pos (h : Enlarges source target) : 0 < ratioFactor source target := by
  have hfits : target ≤ 2048 := h.fits
  have hpos := h.pos
  exact Nat.div_pos (by omega) (h.pos.trans h.le)

theorem ratioFactor_le (hle : source ≤ target) : ratioFactor source target ≤ 2 ^ 20 := by
  refine Nat.div_le_of_le_mul ?_
  rw [Nat.mul_comm target]
  exact Nat.mul_le_mul_left _ hle

/-! ## Registers -/

theorem factor_phaseTable (h : Enlarges source target) (axis : Axis) :
    (factor .phaseTable source target axis).toNat = phaseFactor source target 4 := by
  rw [factor, startPhase_eq, UInt32.toNat_ofNat']
  exact Nat.mod_eq_of_lt ((phaseFactor_le h.le 4).trans_lt (by decide))

theorem factor_ratio (h : Enlarges source target) (axis : Axis) :
    (factor .ratio source target axis).toNat = ratioFactor source target := by
  rw [factor, UInt32.toNat_ofNat']
  exact Nat.mod_eq_of_lt ((ratioFactor_le h.le).trans_lt (by decide))

theorem bits_scaleEnable_or {x y : UInt32} (hx : x.toNat < 2 ^ 14) (hy : y.toNat < 2 ^ 14) :
    let word := Field.scaleEnable ||| ((y &&& Field.factorMask) <<< (16 : UInt32)) |||
      (x &&& Field.factorMask)
    Field.bits 0 14 word = x.toNat ∧ Field.bits 16 14 word = y.toNat ∧ Field.bits 31 1 word = 1 := by
  intro word
  have hmask : Field.factorMask.toNat = 2 ^ 14 - 1 := by decide
  have hlow : (x &&& Field.factorMask).toNat = x.toNat := by
    rw [Field.toNat_and_mask hmask, Nat.mod_eq_of_lt hx]
  have hmid : ((y &&& Field.factorMask) <<< (16 : UInt32)).toNat = y.toNat * 2 ^ 16 := by
    rw [Field.toNat_mask_shift (by decide) hmask, Nat.mod_eq_of_lt hy]
  have hhigh : (Field.scaleEnable ||| ((y &&& Field.factorMask) <<< (16 : UInt32))).toNat =
      (2 ^ 15 + y.toNat) * 2 ^ 16 := by
    rw [UInt32.toNat_or, hmid, show Field.scaleEnable.toNat = 2 ^ 31 * 1 from rfl,
      ← Nat.two_pow_add_eq_or_of_lt (by omega)]
    omega
  have hword : word.toNat = (2 ^ 15 + y.toNat) * 2 ^ 16 + x.toNat := by
    rw [Field.toNat_or_of_lt hhigh (by omega), hlow]
  simp only [Field.bits, hword]
  omega

/-- **No pixel outside the source is fetched, and the factors fit their registers.** The phase filter's factor
is the greatest that keeps to the source, or zero if there is none. The last part holds of any start phase
inside the source, whether the side grows or not. -/
theorem factors_stay_inside :
    (∀ source target, Enlarges source target →
      let factor := phaseFactor source target 4
      let ratio := ratioFactor source target
      (IsGreatest (inside source target 4) factor ∨ inside source target 4 = ∅ ∧ factor = 0) ∧
      factor = 256 * (8 * (source - 1) - 4) / (target - 1) ∧
      (∀ j < target, (factor * j + 1024) / 2048 ≤ source - 1) ∧ factor ≤ 2048 ∧
      0 < ratio ∧ ratio ≤ 2 ^ 20 ∧ (∀ j < target, ratio * j / 2 ^ 20 ≤ source - 1) ∧
      ∀ axis, (Scaler.factor .phaseTable source target axis).toNat = factor ∧
        (Scaler.factor .ratio source target axis).toNat = ratio) ∧
    (∀ size scaled : Size, Enlarges size.width scaled.width → Enlarges size.height scaled.height →
      ∃ word, program .phaseTable (Scaler.factor .phaseTable size.width scaled.width .horizontal)
          (Scaler.factor .phaseTable size.height scaled.height .vertical) =
            [.taps .horizontal horizontalTaps, .taps .vertical verticalTaps, .config 13 word] ∧
        Field.bits 0 14 word = phaseFactor size.width scaled.width 4 ∧
        Field.bits 16 14 word = phaseFactor size.height scaled.height 4 ∧ Field.bits 31 1 word = 1) ∧
    ∀ source target phase, 1 ≤ source → 2 ≤ target → phase ≤ 8 * (source - 1) →
      (phaseFactor source target phase * (target - 1) + 256 * phase) / 2048 ≤ source - 1 := by
  refine ⟨fun source target h => ?_, fun size scaled hwidth hheight => ?_,
    fun source target phase hsource htarget hphase => ?_⟩
  · have hquotient := phaseFactor_eq h.pos h.two_le 4
    have haxis (axis : Axis) := And.intro (factor_phaseTable h axis) (factor_ratio h axis)
    have hratio := And.intro (ratioFactor_pos h) (And.intro (ratioFactor_le h.le)
      (And.intro (fun j (hj : j < target) => ratio_fetch_le source hj) haxis))
    rcases Nat.lt_or_ge (8 * (source - 1)) 4 with hphase | hphase
    · have hzero := phaseFactor_eq_zero h.pos h.two_le hphase
      refine ⟨.inr ⟨inside_eq_empty hphase, hzero⟩, hquotient, fun j _ => ?_, phaseFactor_le h.le 4, hratio⟩
      rw [hzero, Nat.zero_mul]
      exact Nat.zero_le _
    · have hgreatest := phaseFactor_isGreatest h.pos h.two_le hphase
      exact ⟨.inl hgreatest, hquotient, fun j hj => fetch_le hgreatest.1 hj, phaseFactor_le h.le 4, hratio⟩
  · have hlt {source target : Nat} (h : Enlarges source target) (axis : Axis) :
        (Scaler.factor .phaseTable source target axis).toNat < 2 ^ 14 := by
      rw [factor_phaseTable h]
      exact (phaseFactor_le h.le 4).trans_lt (by decide)
    obtain ⟨hx, hy, henable⟩ := bits_scaleEnable_or (hlt hwidth .horizontal) (hlt hheight .vertical)
    exact ⟨_, rfl, hx.trans (factor_phaseTable hwidth _), hy.trans (factor_phaseTable hheight _), henable⟩
  · exact fetch_le (phaseFactor_isGreatest hsource htarget hphase).1 (Nat.sub_one_lt_of_lt htarget)

theorem factors_stay_inside_quarter :
    Enlarges 400 500 ∧ Enlarges 300 375 ∧ IsGreatest (inside 400 500 4) 1635 ∧
      (∀ j < 500, (1635 * j + 1024) / 2048 ≤ 399) ∧ (∀ j < 500, 838860 * j / 2 ^ 20 ≤ 399) ∧
      (∃ word, program .phaseTable (factor .phaseTable 400 500 .horizontal)
          (factor .phaseTable 300 375 .vertical) =
            [.taps .horizontal horizontalTaps, .taps .vertical verticalTaps, .config 13 word] ∧
        Field.bits 0 14 word = 1635 ∧ Field.bits 16 14 word = 1634 ∧ Field.bits 31 1 word = 1) ∧
      (phaseFactor 400 100 7 * 99 + 256 * 7) / 2048 ≤ 399 := by
  have hwidth : Enlarges 400 500 := ⟨by decide, by decide, by decide, by decide⟩
  have hheight : Enlarges 300 375 := ⟨by decide, by decide, by decide, by decide⟩
  obtain ⟨hsides, hwords, hstart⟩ := factors_stay_inside
  obtain ⟨hgreatest, -, hphase, -, -, -, hratio, -⟩ := hsides 400 500 hwidth
  exact ⟨hwidth, hheight, hgreatest.resolve_right fun h => absurd h.2 (by decide), hphase, hratio,
    hwords ⟨400, 300⟩ ⟨500, 375⟩ hwidth hheight, hstart 400 100 7 (by decide) (by decide) (by decide)⟩

end Scaler

end BootLogo
