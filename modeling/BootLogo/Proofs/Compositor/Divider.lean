import BootLogo.Hardware.Recorder
import BootLogo.Proofs.Compositor.TimingFields
import BootLogo.Proofs.Words
import BootLogo.Session
import Mathlib.Algebra.Order.Ring.Rat
import Mathlib.Data.Rat.Cast.Order
import Mathlib.Order.Bounds.Basic
import Mathlib.Tactic.Linarith

/-!
# The clock divider

The clock of the controller is divided down to the one that the panel asks for. Only a whole number can be
divided by, so it is the nearest one, and of two that are as near the lower one.

* `nearest`: what that means; `isLeast_nearestDivider`: comparing the remainder with half of the pixel clock
  finds it, be the pixel clock odd or even.
* `clockDividerInWords`: the divider in machine words; no step of it overflows or divides by zero.
* `clockWord_eq`: the word that holds the divider, beside what the controller has in CFG0.
* `init_rejected`: a start that is refused its timing leaves everything alone.
* `clock_nearest` puts them together.
-/

namespace BootLogo

/-- The integers at the least distance from a number. -/
def nearest (x : ℚ) : Set ℤ := {n | ∀ other : ℤ, |x - n| ≤ |x - other|}

theorem isLeast_nearest {x : ℚ} {n : ℤ} (hbelow : -(1 / 2) < x - n) (habove : x - n ≤ 1 / 2) :
    IsLeast (nearest x) n := by
  have hlower {other : ℤ} (hlt : other < n) : 1 / 2 < x - other := by
    have hcast : (other : ℚ) + 1 ≤ n := by exact_mod_cast hlt
    linarith
  have hupper {other : ℤ} (hlt : n < other) : x - other ≤ -(1 / 2) := by
    have hcast : (n : ℚ) + 1 ≤ other := by exact_mod_cast hlt
    linarith
  have hhalf : |x - n| ≤ 1 / 2 := abs_le.2 ⟨hbelow.le, habove⟩
  constructor
  · intro other
    rcases lt_trichotomy other n with hlt | rfl | hlt
    · exact hhalf.trans ((hlower hlt).le.trans (le_abs_self _))
    · exact le_refl _
    · exact hhalf.trans ((le_neg_of_le_neg (hupper hlt)).trans (neg_le_abs _))
  · intro other hother
    by_contra hlt
    have hfar := (hlower (not_le.1 hlt)).trans_le (le_abs_self _)
    exact absurd (hother n) (not_le.2 (hhalf.trans_lt hfar))

namespace Compositor

variable {compositor : Compositor} {clock pixel : Nat}

/-! ## The nearest divider -/

theorem nearestDivider_bounds (hpixel : 0 < pixel) :
    2 * nearestDivider clock pixel * pixel < 2 * clock + pixel ∧
      2 * clock ≤ 2 * nearestDivider clock pixel * pixel + pixel := by
  have hdiv := Nat.div_add_mod' clock pixel
  have hmod := Nat.mod_lt clock hpixel
  unfold nearestDivider
  generalize clock / pixel = quotient at hdiv ⊢
  generalize clock % pixel = remainder at hdiv hmod ⊢
  split
  · rw [show 2 * (quotient + 1) * pixel = 2 * (quotient * pixel) + 2 * pixel by ring]
    omega
  · rw [show 2 * quotient * pixel = 2 * (quotient * pixel) by ring]
    omega

theorem isLeast_nearestDivider (hpixel : 0 < pixel) :
    IsLeast (nearest (clock / pixel : ℚ)) (nearestDivider clock pixel) := by
  obtain ⟨hbelow, habove⟩ := @nearestDivider_bounds clock pixel hpixel
  generalize nearestDivider clock pixel = divider at hbelow habove
  have hpos : (0 : ℚ) < pixel := by exact_mod_cast hpixel
  have hbelow' : (2 * divider * pixel : ℚ) < 2 * clock + pixel := by exact_mod_cast hbelow
  have habove' : (2 * clock : ℚ) ≤ 2 * divider * pixel + pixel := by exact_mod_cast habove
  have hdistance : (clock : ℚ) / pixel - (divider : ℤ) = (clock - divider * pixel) / pixel := by
    rw [sub_div, mul_div_cancel_right₀ _ hpos.ne']
    rfl
  refine isLeast_nearest ?_ ?_
  · rw [hdistance, lt_div_iff₀ hpos]
    linarith
  · rw [hdistance, div_le_iff₀ hpos]
    linarith

/-- The divider that the panel asks for. -/
def divider (compositor : Compositor) : Nat :=
  nearestDivider compositor.board.clockHz compositor.board.panel.pixelRate

/-- The divider less the bias fits its field, and it is not zero. -/
def DividerFits (compositor : Compositor) : Prop :=
  max compositor.map.timing.clkdivBias 1 ≤ compositor.divider ∧
    compositor.divider ≤ compositor.map.timing.clkdivBias + 255

instance (compositor : Compositor) : Decidable compositor.DividerFits :=
  inferInstanceAs (Decidable (_ ∧ _))

theorem clockDivider_eq (h : compositor.board.panel.Programmable) :
    compositor.clockDivider =
      if compositor.DividerFits then .ok compositor.divider else .error .clockOutOfRange := by
  have hmax : Field.clkdivMax = 255 := rfl
  rw [clockDivider, h.pixelRate.1]
  show (if compositor.divider < _ ∨ _ < compositor.divider - _ then _ else _) = _
  rw [← ite_not]
  refine if_congr ?_ rfl rfl
  rw [DividerFits, hmax]
  omega

/-! ## In machine words -/

/-- `nearestDivider`, computed in machine words. -/
def nearestDividerInWords (clock pixel : Nat) : Option Nat :=
  if pixel = 0 then none
  else do
    let quotient ← Word.unsigned (2 ^ 32) (clock / pixel : Nat)
    if pixel / 2 < clock % pixel then Word.unsigned (2 ^ 32) (quotient + 1 : Nat) else some quotient

/-- `clockDivider`, computed in machine words. -/
def clockDividerInWords (compositor : Compositor) : Option (Except ConfigError Nat) :=
  match compositor.board.panel.pixelRate? with
  | none => some (.error .badRefreshRate)
  | some pixel => do
    let divider ← nearestDividerInWords compositor.board.clockHz pixel
    let bias := compositor.map.timing.clkdivBias
    if divider < max bias 1 then some (.error .clockOutOfRange)
    else do
      let stored ← Word.unsigned (2 ^ 32) (divider - bias)
      some (if Field.clkdivMax < stored then .error .clockOutOfRange else .ok divider)

theorem nearestDivider_lt (hclock : clock < 2 ^ 32) (hpixel : 0 < pixel) :
    nearestDivider clock pixel < 2 ^ 32 := by
  have hle : clock / pixel ≤ clock := Nat.div_le_self clock pixel
  unfold nearestDivider
  split
  · -- a remainder means that the pixel clock is at least two
    rename_i hround
    have hmod := Nat.mod_lt clock hpixel
    have htwo : 2 ≤ pixel := by omega
    have hhalf : clock / pixel ≤ clock / 2 := Nat.div_le_div_left htwo (by decide)
    omega
  · omega

theorem nearestDividerInWords_eq (hclock : clock < 2 ^ 32) (hpixel : 0 < pixel) :
    nearestDividerInWords clock pixel = some (nearestDivider clock pixel) := by
  have hdivider := nearestDivider_lt hclock hpixel
  rw [nearestDividerInWords, if_neg hpixel.ne',
    Word.bind_eq (Word.unsigned_eq ((Nat.div_le_self clock pixel).trans_lt hclock))]
  unfold nearestDivider at hdivider ⊢
  split at hdivider
  · rename_i hround
    rw [if_pos hround, if_pos hround, Word.unsigned_eq hdivider]
    rfl
  · rename_i hround
    rw [if_neg hround, if_neg hround]

theorem clockDividerInWords_eq (h : compositor.board.panel.Programmable)
    (hclock : compositor.board.clockHz < 2 ^ 32) :
    compositor.clockDividerInWords = some compositor.clockDivider := by
  obtain ⟨hrate, hpixel, -⟩ := h.pixelRate
  have hdivider := nearestDivider_lt hclock hpixel
  rw [clockDividerInWords, clockDivider, hrate]
  dsimp only
  rw [Word.bind_eq (nearestDividerInWords_eq hclock hpixel)]
  generalize nearestDivider _ _ = divider at hdivider ⊢
  by_cases hsmall : divider < max compositor.map.timing.clkdivBias 1
  · rw [if_pos hsmall, if_pos (.inl hsmall)]
  · have hbias : compositor.map.timing.clkdivBias ≤ divider := by omega
    rw [if_neg hsmall, ← Nat.cast_sub hbias,
      Word.bind_eq (Word.unsigned_eq ((Nat.sub_le _ _).trans_lt hdivider))]
    simp only [hsmall, false_or]

/-! ## The field -/

theorem clockWord_eq (houtput : compositor.board.output ≠ .lvds) :
    compositor.clockWord = compositor.clockDivider.map fun divider =>
      compositor.map.timing.cfg0 ||| Field.clkdiv (.ofNat (divider - compositor.map.timing.clkdivBias)) := by
  rw [clockWord, if_neg houtput]
  cases compositor.clockDivider <;> rfl

theorem timingWords_of_clockWord {clock : UInt32} (h : compositor.clockWord = .ok clock) :
    ∃ words, compositor.timingWords = .ok words ∧ words.config[0]? = some clock := by
  rw [timingWords, h]
  exact ⟨_, rfl, rfl⟩

theorem timingWords_of_error {error : ConfigError} (h : compositor.clockWord = .error error) :
    compositor.timingWords = .error error := by
  rw [timingWords, h]
  rfl

theorem init_rejected {σ : Type} {error : ConfigError} (h : compositor.timingWords = .error error)
    (hardware : Hardware σ) (patience : Nat) (state : State) (world : σ) :
    Operation.init.perform hardware patience compositor state world =
      { ending := .failed (.config error), state := state, hardware := world, trace := [] } := by
  rw [Operation.perform, Operation.script, init, h]
  rfl

theorem cfg0_clkdiv {map : Register.Map}
    (h : map = Register.sama5d2 ∨ map = Register.sam9x60 ∨ map = Register.sam9x7) :
    Field.bits 16 8 map.timing.cfg0 = 0 := by
  rcases h with rfl | rfl | rfl <;> decide

/-- **The divider is the nearest that there is**, and of two the lower one. If it fits its field, CFG0 holds
it less the bias beside what the controller has in the other bits; if not, a start does nothing. The field
holds nothing else on the three controllers. -/
theorem clock_nearest (haccepted : compositor.board.validate = .ok ()) :
    let clockHz := compositor.board.clockHz
    let panel := compositor.board.panel
    let timing := compositor.map.timing
    let bias := timing.clkdivBias
    let pixel := panel.refreshHz * panel.lineTotal * panel.frameTotal
    ∃ divider : Nat,
      0 < pixel ∧ IsLeast (nearest (clockHz / pixel : ℚ)) divider ∧
      compositor.clockDivider =
        (if max bias 1 ≤ divider ∧ divider ≤ bias + 255 then .ok divider else .error .clockOutOfRange) ∧
      (clockHz < wordLimit → compositor.clockDividerInWords = some compositor.clockDivider) ∧
      (compositor.board.output ≠ .lvds →
        (max bias 1 ≤ divider ∧ divider ≤ bias + 255 →
          ∃ words clock, compositor.timingWords = .ok words ∧ words.config[0]? = some clock ∧
            Field.bits 16 8 clock = Field.bits 16 8 timing.cfg0 ||| (divider - bias) ∧
            (Field.bits 16 8 timing.cfg0 = 0 → Field.bits 16 8 clock + bias = divider) ∧
            ∀ index, ¬ (16 ≤ index ∧ index < 24) →
              clock.toNat.testBit index = timing.cfg0.toNat.testBit index) ∧
        (¬ (max bias 1 ≤ divider ∧ divider ≤ bias + 255) →
          compositor.timingWords = .error .clockOutOfRange)) ∧
      (∀ map : Register.Map, map = Register.sama5d2 ∨ map = Register.sam9x60 ∨ map = Register.sam9x7 →
        Field.bits 16 8 map.timing.cfg0 = 0) ∧
      ∀ error, compositor.timingWords = .error error →
        ∀ (σ : Type) (hardware : Hardware σ) patience state world,
          Operation.init.perform hardware patience compositor state world =
            { ending := .failed (.config error), state := state, hardware := world, trace := [] } := by
  intro clockHz panel timing bias pixel
  have hpanel := (Board.validate_eq_ok_iff.1 haccepted).1
  have hdivider := clockDivider_eq hpanel
  refine ⟨compositor.divider, hpanel.pixelRate.2.1, isLeast_nearestDivider hpanel.pixelRate.2.1, hdivider,
    clockDividerInWords_eq hpanel, fun houtput => ⟨fun hfits => ?_, fun hfits => ?_⟩, fun _ => cfg0_clkdiv,
    fun error herror σ hardware patience state world => init_rejected herror hardware patience state world⟩
  · have hclock := clockWord_eq houtput
    rw [hdivider.trans (if_pos hfits)] at hclock
    obtain ⟨words, hwords, hfirst⟩ := timingWords_of_clockWord hclock
    have hstored : compositor.divider - bias < 2 ^ 8 := by omega
    obtain ⟨hbits, hothers⟩ := Field.bits_or_clkdiv timing.cfg0 hstored
    refine ⟨words, _, hwords, hfirst, hbits, fun hfree => ?_, hothers⟩
    rw [hbits, hfree, Nat.zero_or]
    omega
  · have hclock := clockWord_eq houtput
    rw [hdivider.trans (if_neg hfits)] at hclock
    exact timingWords_of_error hclock

/-- A clock that is hardly faster than the pixel clock of the panel. -/
def slow : Compositor := withPanel { Board.sama5d2Xult with clockHz := 30000000 } .wvga

theorem clock_nearest_wvga :
    IsLeast (nearest ((166000000 : Nat) / (28493820 : Nat) : ℚ)) 6 ∧
      (withPanel .sama5d2Xult .wvga).clockDividerInWords = some (.ok 6) ∧
      (∃ words clock, (withPanel .sama5d2Xult .wvga).timingWords = .ok words ∧
        words.config[0]? = some clock ∧ Field.bits 16 8 clock + 2 = 6) ∧
      Operation.init.perform Recorder.hardware 0 slow (.initial slow.board) Recorder.fresh =
        ⟨.failed (.config .clockOutOfRange), .initial slow.board, Recorder.fresh, []⟩ := by
  obtain ⟨divider, -, hleast, hdivider, hinWords, hfield, hknown, -⟩ :=
    @clock_nearest (withPanel .sama5d2Xult .wvga) rfl
  obtain ⟨-, -, -, -, -, -, -, hinit⟩ := @clock_nearest slow rfl
  have hsix : (withPanel .sama5d2Xult .wvga).clockDivider = .ok 6 := by decide +kernel
  obtain rfl : divider = 6 := by
    rw [hsix] at hdivider
    split at hdivider
    · cases hdivider
      rfl
    · cases hdivider
  obtain ⟨words, clock, hwords, hclock, -, hstored, -⟩ := (hfield (by decide)).1 (by decide)
  exact ⟨hleast, (hinWords (by decide)).trans (congrArg some hsix),
    ⟨words, clock, hwords, hclock, hstored (hknown _ (.inl rfl))⟩, hinit _ rfl _ _ 0 _ _⟩

end Compositor

end BootLogo
