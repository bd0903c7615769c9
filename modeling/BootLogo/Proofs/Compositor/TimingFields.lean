import BootLogo.Compositor.Timing
import BootLogo.Proofs.Boards
import BootLogo.Proofs.Register.Packing

/-!
# What the timing registers hold

The fields of CFG1 to CFG4 are read back and compared with the panel. All but one hold a number less one,
and what an accepted panel allows is what they can hold. The vertical back porch is the exception: a
field of ten bits holds it as it is or less one, but a panel may have any porch from 0 to 1024. So one
accepted porch is lost on every controller: 0 where the field holds it less one, 1024 where it does not.

* `TimingWords.fields`: the fields; `fields_eq`: what they hold for an accepted panel.
* `fields_keep_panel`: everything but the back porch is read back, the back porch exactly if it fits, and
  two panels share the fields exactly if they differ in nothing but lost back porches.
-/

namespace BootLogo

/-- The numbers in the fields of CFG1 to CFG4. -/
structure TimingFields where
  hspw : Nat
  vspw : Nat
  vfpw : Nat
  vbpw : Nat
  hfpw : Nat
  hbpw : Nat
  ppl : Nat
  rpf : Nat
  deriving DecidableEq

def TimingWords.fields (words : TimingWords) : TimingFields where
  hspw := Field.bits 0 10 (words.config.getD 1 0)
  vspw := Field.bits 16 10 (words.config.getD 1 0)
  vfpw := Field.bits 0 10 (words.config.getD 2 0)
  vbpw := Field.bits 16 10 (words.config.getD 2 0)
  hfpw := Field.bits 0 10 (words.config.getD 3 0)
  hbpw := Field.bits 16 10 (words.config.getD 3 0)
  ppl := Field.bits 0 11 (words.config.getD 4 0)
  rpf := Field.bits 16 11 (words.config.getD 4 0)

namespace Panel

/-- What the fields are made from, apart from the vertical back porch. -/
def timing (panel : Panel) : List Nat :=
  [panel.hpw, panel.vpw, panel.hfp, panel.hbp, panel.vfp, panel.width, panel.height]

/-- The field for the vertical back porch can hold the panel's, as it is or less one. -/
def BackPorchFits (panel : Panel) (minusOne : Bool) : Prop :=
  if minusOne then panel.vbp ≠ 0 else panel.vbp ≠ porchLimit

/-- Two vertical back porches that the field cannot tell apart. -/
def BackPorchesClash (panel other : Panel) (minusOne : Bool) : Prop :=
  if minusOne then panel.vbp ≤ 1 ∧ other.vbp ≤ 1
  else panel.vbp % porchLimit = 0 ∧ other.vbp % porchLimit = 0

instance (panel : Panel) (minusOne : Bool) : Decidable (panel.BackPorchFits minusOne) :=
  inferInstanceAs (Decidable (if minusOne then panel.vbp ≠ 0 else panel.vbp ≠ porchLimit))

end Panel

namespace Compositor

def backPorchWord (minusOne : Bool) (vbp : Nat) : UInt32 :=
  if minusOne then lessOne vbp else .ofNat vbp

def storedBackPorch (minusOne : Bool) (vbp : Nat) : Nat := if minusOne then vbp - 1 else vbp % 1024

theorem toNat_lessOne_mod {value limit : Nat} (hlimit : limit ≤ 2048)
    (h : 0 < value ∧ value ≤ limit) : (lessOne value).toNat % limit = value - 1 := by
  have hvalue : (lessOne value).toNat = value - 1 := by
    rw [lessOne, UInt32.toNat_ofNat']
    exact Nat.mod_eq_of_lt (by omega)
  rw [hvalue]
  exact Nat.mod_eq_of_lt (by omega)

theorem toNat_backPorchWord_mod {minusOne : Bool} {vbp : Nat} (h : vbp ≤ Panel.porchLimit) :
    (backPorchWord minusOne vbp).toNat % 1024 = storedBackPorch minusOne vbp := by
  have hvbp : vbp ≤ 1024 := h
  unfold backPorchWord storedBackPorch
  split
  · rw [lessOne, UInt32.toNat_ofNat']
    omega
  · rw [UInt32.toNat_ofNat']
    omega

theorem timingWords_eq_ok {compositor : Compositor} {words : TimingWords}
    (h : compositor.timingWords = .ok words) :
    let panel := compositor.board.panel
    let timing := compositor.map.timing
    ∃ clock, compositor.clockWord = .ok clock ∧ words = {
      config := [
        clock,
        Field.vspw (lessOne panel.vpw) ||| Field.hspw (lessOne panel.hpw),
        Field.vbpw (backPorchWord timing.vbpMinusOne panel.vbp) ||| Field.vfpw (lessOne panel.vfp),
        Field.hbpw (lessOne panel.hbp) ||| Field.hfpw (lessOne panel.hfp),
        Field.rpf (lessOne panel.height) ||| Field.ppl (lessOne panel.width),
        timing.cfg5]
      pwm :=
        match compositor.board.backlight with
        | .pwm => some (timing.cfg6 ||| Field.pwmcval 0)
        | .gpio => none } := by
  intro panel timing
  unfold timingWords at h
  cases hclock : compositor.clockWord with
  | error error =>
    rw [hclock] at h
    cases h
  | ok clock =>
    rw [hclock] at h
    cases h
    exact ⟨clock, rfl, rfl⟩

theorem fields_eq {compositor : Compositor} {words : TimingWords}
    (hpanel : compositor.board.panel.Programmable) (h : compositor.timingWords = .ok words) :
    let panel := compositor.board.panel
    words.fields = {
      hspw := panel.hpw - 1
      vspw := panel.vpw - 1
      vfpw := panel.vfp - 1
      vbpw := storedBackPorch compositor.map.timing.vbpMinusOne panel.vbp
      hfpw := panel.hfp - 1
      hbpw := panel.hbp - 1
      ppl := panel.width - 1
      rpf := panel.height - 1 } := by
  intro panel
  obtain ⟨clock, -, hwords⟩ := timingWords_eq_ok h
  obtain ⟨hwidth, hheight, hhpw, hvpw, hhfp, hhbp, hvfp, hvbp, -⟩ := hpanel
  have hporch {value : Nat} (hvalue : 0 < value ∧ value ≤ Panel.porchLimit) :
      (lessOne value).toNat % 2 ^ 10 = value - 1 := toNat_lessOne_mod (by decide) hvalue
  have hactive {value : Nat} (hvalue : 0 < value ∧ value ≤ Panel.activeLimit) :
      (lessOne value).toNat % 2 ^ 11 = value - 1 := toNat_lessOne_mod (by decide) hvalue
  have hback : (backPorchWord compositor.map.timing.vbpMinusOne panel.vbp).toNat % 2 ^ 10 =
      storedBackPorch compositor.map.timing.vbpMinusOne panel.vbp := toNat_backPorchWord_mod hvbp
  have hten := @Field.bits_masks 10 0x03FF0000 0x3FF (by decide) (by decide) (by decide)
  have heleven := @Field.bits_masks 11 0x07FF0000 0x7FF (by decide) (by decide) (by decide)
  have hcfg1 := hten (lessOne panel.vpw) (lessOne panel.hpw)
  have hcfg2 := hten (backPorchWord compositor.map.timing.vbpMinusOne panel.vbp) (lessOne panel.vfp)
  have hcfg3 := hten (lessOne panel.hbp) (lessOne panel.hfp)
  have hcfg4 := heleven (lessOne panel.height) (lessOne panel.width)
  rw [hporch hhpw, hporch hvpw] at hcfg1
  rw [hporch hvfp, hback] at hcfg2
  rw [hporch hhfp, hporch hhbp] at hcfg3
  rw [hactive hwidth, hactive hheight] at hcfg4
  rw [hwords]
  simp only [TimingWords.fields, TimingFields.mk.injEq]
  exact ⟨hcfg1.1, hcfg1.2, hcfg2.1, hcfg2.2, hcfg3.1, hcfg3.2, hcfg4.1, hcfg4.2⟩

theorem storedBackPorch_eq_iff {panel other : Panel} {minusOne : Bool}
    (hpanel : panel.vbp ≤ Panel.porchLimit) (hother : other.vbp ≤ Panel.porchLimit) :
    storedBackPorch minusOne panel.vbp = storedBackPorch minusOne other.vbp ↔
      panel.vbp = other.vbp ∨ panel.BackPorchesClash other minusOne := by
  have hlimit : Panel.porchLimit = 1024 := rfl
  rw [hlimit] at hpanel hother
  cases minusOne with
  | true =>
    simp only [storedBackPorch, Panel.BackPorchesClash, if_true]
    omega
  | false =>
    simp only [storedBackPorch, Panel.BackPorchesClash, hlimit, Bool.false_eq_true, if_false]
    omega

theorem storedBackPorch_eq_self_iff {panel : Panel} {minusOne : Bool}
    (h : panel.vbp ≤ Panel.porchLimit) :
    storedBackPorch minusOne panel.vbp + (if minusOne then 1 else 0) = panel.vbp ↔
      panel.BackPorchFits minusOne := by
  have hlimit : Panel.porchLimit = 1024 := rfl
  rw [hlimit] at h
  cases minusOne with
  | true =>
    simp only [storedBackPorch, Panel.BackPorchFits, if_true]
    omega
  | false =>
    simp only [storedBackPorch, Panel.BackPorchFits, hlimit, Bool.false_eq_true, if_false]
    omega

theorem vbpw_congr {x y : UInt32} (h : x.toNat % 1024 = y.toNat % 1024) :
    Field.vbpw x = Field.vbpw y := by
  have hfield (z : UInt32) : (Field.vbpw z).toNat = z.toNat % 1024 * 2 ^ 16 :=
    @Field.toNat_shift_and_mask 10 _ (by decide) (by decide) z
  rw [← UInt32.toNat_inj, hfield, hfield, h]

theorem timing_eq_of_fields_eq {compositor other : Compositor} {words : TimingWords}
    {otherWords : TimingWords} (hpanel : compositor.board.panel.Programmable)
    (hother : other.board.panel.Programmable) (hwords : compositor.timingWords = .ok words)
    (hotherWords : other.timingWords = .ok otherWords)
    (hprofile : other.map.timing = compositor.map.timing) (h : words.fields = otherWords.fields) :
    compositor.board.panel.timing = other.board.panel.timing ∧
      (compositor.board.panel.vbp = other.board.panel.vbp ∨
        compositor.board.panel.BackPorchesClash other.board.panel
          compositor.map.timing.vbpMinusOne) := by
  rw [fields_eq hpanel hwords, fields_eq hother hotherWords, hprofile,
    TimingFields.mk.injEq] at h
  obtain ⟨hhpw, hvpw, hvfp, hvbp, hhfp, hhbp, hwidth, hheight⟩ := h
  -- none of the numbers that are stored less one is zero
  have hlessOne {a b : Nat} (ha : 0 < a) (hb : 0 < b) (hab : a - 1 = b - 1) : a = b := by omega
  constructor
  · rw [Panel.timing, Panel.timing, hlessOne hpanel.hpw.1 hother.hpw.1 hhpw,
      hlessOne hpanel.vpw.1 hother.vpw.1 hvpw, hlessOne hpanel.hfp.1 hother.hfp.1 hhfp,
      hlessOne hpanel.hbp.1 hother.hbp.1 hhbp, hlessOne hpanel.vfp.1 hother.vfp.1 hvfp,
      hlessOne hpanel.width.1 hother.width.1 hwidth, hlessOne hpanel.height.1 hother.height.1 hheight]
  · exact (storedBackPorch_eq_iff hpanel.vbp hother.vbp).1 hvbp

theorem timingWords_eq_iff {compositor other : Compositor} {words otherWords : TimingWords}
    (hpanel : compositor.board.panel.Programmable) (hother : other.board.panel.Programmable)
    (hwords : compositor.timingWords = .ok words) (hotherWords : other.timingWords = .ok otherWords)
    (hprofile : other.map.timing = compositor.map.timing) :
    words = otherWords ↔ compositor.clockWord = other.clockWord ∧
      compositor.board.backlight = other.board.backlight ∧
      compositor.board.panel.timing = other.board.panel.timing ∧
      (compositor.board.panel.vbp = other.board.panel.vbp ∨
        compositor.board.panel.BackPorchesClash other.board.panel
          compositor.map.timing.vbpMinusOne) := by
  obtain ⟨clock, hclock, hshape⟩ := timingWords_eq_ok hwords
  obtain ⟨otherClock, hotherClock, hotherShape⟩ := timingWords_eq_ok hotherWords
  constructor
  · intro h
    have hhead : words.config.head? = otherWords.config.head? := by rw [h]
    have hpwm : words.pwm.isSome = otherWords.pwm.isSome := by rw [h]
    rw [hshape, hotherShape] at hhead hpwm
    refine ⟨?_, ?_, timing_eq_of_fields_eq hpanel hother hwords hotherWords hprofile (by rw [h])⟩
    · rw [hclock, hotherClock, Option.some.inj hhead]
    · revert hpwm
      cases compositor.board.backlight <;> cases other.board.backlight <;> intro hpwm
      all_goals first | rfl | cases hpwm
  · rintro ⟨hclocks, hbacklight, htiming, hvbp⟩
    rw [hclock, hotherClock, Except.ok.injEq] at hclocks
    simp only [Panel.timing, List.cons.injEq, and_true] at htiming
    obtain ⟨hhpw, hvpw, hhfp, hhbp, hvfp, hwidth, hheight⟩ := htiming
    have hporch : Field.vbpw (backPorchWord compositor.map.timing.vbpMinusOne
          compositor.board.panel.vbp) =
        Field.vbpw (backPorchWord compositor.map.timing.vbpMinusOne other.board.panel.vbp) := by
      apply vbpw_congr
      rw [toNat_backPorchWord_mod hpanel.vbp, toNat_backPorchWord_mod hother.vbp]
      exact (storedBackPorch_eq_iff hpanel.vbp hother.vbp).2 hvbp
    rw [hshape, hotherShape, hprofile, hbacklight, hclocks, hporch, hhpw, hvpw, hhfp, hhbp, hvfp,
      hwidth, hheight]

/-- **Everything but the back porch is read back.** A lost back porch is all that two panels can differ
in if they share the timing words. -/
theorem fields_keep_panel {compositor : Compositor} {words : TimingWords}
    (haccepted : compositor.board.validate = .ok ()) (hwords : compositor.timingWords = .ok words) :
    let panel := compositor.board.panel
    let minusOne := compositor.map.timing.vbpMinusOne
    (words.fields.hspw + 1 = panel.hpw ∧ words.fields.vspw + 1 = panel.vpw ∧
      words.fields.hfpw + 1 = panel.hfp ∧ words.fields.hbpw + 1 = panel.hbp ∧
      words.fields.vfpw + 1 = panel.vfp ∧ words.fields.ppl + 1 = panel.width ∧
      words.fields.rpf + 1 = panel.height) ∧
    (words.fields.vbpw + (if minusOne then 1 else 0) = panel.vbp ↔ panel.BackPorchFits minusOne) ∧
    ∀ {other : Compositor} {otherWords : TimingWords}, other.map.timing = compositor.map.timing →
      other.board.validate = .ok () → other.timingWords = .ok otherWords →
      (words = otherWords ↔ compositor.clockWord = other.clockWord ∧
        compositor.board.backlight = other.board.backlight ∧ panel.timing = other.board.panel.timing ∧
        (panel.vbp = other.board.panel.vbp ∨ panel.BackPorchesClash other.board.panel minusOne)) := by
  intro panel minusOne
  have hpanel := (Board.validate_eq_ok_iff.1 haccepted).1
  refine ⟨?_, ?_, ?_⟩
  · rw [fields_eq hpanel hwords]
    exact ⟨Nat.sub_add_cancel hpanel.hpw.1, Nat.sub_add_cancel hpanel.vpw.1,
      Nat.sub_add_cancel hpanel.hfp.1, Nat.sub_add_cancel hpanel.hbp.1,
      Nat.sub_add_cancel hpanel.vfp.1, Nat.sub_add_cancel hpanel.width.1,
      Nat.sub_add_cancel hpanel.height.1⟩
  · rw [fields_eq hpanel hwords]
    exact storedBackPorch_eq_self_iff hpanel.vbp
  · intro other otherWords hprofile haccepted' hwords'
    have hother := (Board.validate_eq_ok_iff.1 haccepted').1
    exact timingWords_eq_iff hpanel hother hwords hwords' hprofile

/-- The panel with every size, pulse and porch at its limit. -/
def largestPanel : Panel where
  width := 2048
  height := 2048
  refreshHz := 1
  hfp := 1024
  hbp := 1024
  hpw := 1024
  vfp := 1024
  vbp := 1024
  vpw := 1024

def withPanel (board : Board) (panel : Panel) : Compositor :=
  ⟨{ board with panel := panel }, board.regs, board.regs.generation.scaler, 0⟩

theorem fields_keep_largestPanel :
    ∃ words otherWords,
      (withPanel .sam9x75Eb largestPanel).board.validate = .ok () ∧
      (withPanel .sam9x75Eb largestPanel).timingWords = .ok words ∧
      words.fields.hspw + 1 = 1024 ∧ words.fields.vbpw + 1 = 1024 ∧ words.fields.rpf + 1 = 2048 ∧
      (withPanel .sam9x75Eb .wvga).timingWords = .ok otherWords ∧ words ≠ otherWords := by
  obtain ⟨⟨hhspw, -, -, -, -, -, hrpf⟩, hvbpw, hothers⟩ :=
    @fields_keep_panel (withPanel .sam9x75Eb largestPanel) _ rfl rfl
  refine ⟨_, _, rfl, rfl, hhspw, hvbpw.2 (by decide), hrpf, rfl, ?_⟩
  intro h
  have hsame := (@hothers (withPanel .sam9x75Eb .wvga) _ rfl rfl rfl).1 h
  exact absurd hsame.2.2.1 (by decide)

/-- Where the porch is held as it is, the largest is held as none. -/
theorem largest_backPorch_lost :
    ∃ words, (withPanel .sama5d2Xult { Panel.wvga with vbp := 1024 }).board.validate = .ok () ∧
      (withPanel .sama5d2Xult { Panel.wvga with vbp := 1024 }).timingWords = .ok words ∧
      words.fields.vbpw = 0 :=
  ⟨_, rfl, rfl, rfl⟩

/-- Where the porch is held less one, none is held as one. -/
theorem no_backPorch_lost :
    ∃ words, (withPanel { Board.sam9x75Eb with output := .lvds }
        { Panel.wvga with vbp := 0 }).board.validate = .ok () ∧
      (withPanel { Board.sam9x75Eb with output := .lvds }
        { Panel.wvga with vbp := 0 }).timingWords = .ok words ∧
      (withPanel { Board.sam9x75Eb with output := .lvds } Panel.wvga).timingWords = .ok words :=
  ⟨_, rfl, rfl, rfl⟩

end Compositor

end BootLogo
