import BootLogo.Board

/-!
# What an accepted board promises

* `Panel.Programmable`: the bounds that a panel keeps if it is accepted, and no others
  (`Panel.validate_eq_ok_iff`).
* `Programmable.pixelRate`: the pixel clock of an accepted panel.
* `Board.validate_eq_ok_iff`: a board is accepted if its panel is, it has a clock, and a serial panel has
  a controller that can talk to it.
-/

namespace BootLogo

namespace Panel

/-- The sizes, pulses and porches stay inside their limits, and the pixel clock has a rate. -/
structure Programmable (panel : Panel) : Prop where
  width : 0 < panel.width ∧ panel.width ≤ activeLimit
  height : 0 < panel.height ∧ panel.height ≤ activeLimit
  hpw : 0 < panel.hpw ∧ panel.hpw ≤ porchLimit
  vpw : 0 < panel.vpw ∧ panel.vpw ≤ porchLimit
  hfp : 0 < panel.hfp ∧ panel.hfp ≤ porchLimit
  hbp : 0 < panel.hbp ∧ panel.hbp ≤ porchLimit
  vfp : 0 < panel.vfp ∧ panel.vfp ≤ porchLimit
  vbp : panel.vbp ≤ porchLimit
  refresh : panel.refreshHz ≠ 0 ∧ panel.pixelRate? ≠ none

theorem validate_eq_ok_iff {panel : Panel} : panel.validate = .ok () ↔ panel.Programmable := by
  constructor
  · intro h
    unfold validate at h
    split at h
    · cases h
    · split at h
      · cases h
      · split at h
        · cases h
        · split at h
          · cases h
          · rename_i hporch
            split at h
            · cases h
            · rename_i hrefresh
              simp only [List.any_cons, List.any_nil, Bool.or_false, Bool.or_eq_true,
                decide_eq_true_eq] at hporch
              exact ⟨by omega, by omega, by omega, by omega, by omega, by omega, by omega, by omega,
                not_or.1 hrefresh⟩
  · intro h
    obtain ⟨hwidth, hheight, hhpw, hvpw, hhfp, hhbp, hvfp, hvbp, hrefresh⟩ := h
    unfold validate
    rw [if_neg (by omega), if_neg (by omega), if_neg (by omega), if_neg, if_neg (not_or.2 hrefresh)]
    simp only [List.any_cons, List.any_nil, Bool.or_false, Bool.or_eq_true, decide_eq_true_eq]
    omega

/-- The pixel clock that the refresh rate asks for. -/
def pixelRate (panel : Panel) : Nat := panel.refreshHz * panel.lineTotal * panel.frameTotal

theorem Programmable.pixelRate {panel : Panel} (h : panel.Programmable) :
    panel.pixelRate? = some panel.pixelRate ∧ 0 < panel.pixelRate ∧ panel.pixelRate < wordLimit := by
  have hline : 0 < panel.lineTotal := Nat.lt_of_lt_of_le h.width.1 (by unfold lineTotal; omega)
  have hframe : 0 < panel.frameTotal := Nat.lt_of_lt_of_le h.height.1 (by unfold frameTotal; omega)
  obtain ⟨hrefresh, hrate⟩ := h.refresh
  rw [pixelRate?] at hrate ⊢
  by_cases hfits : panel.refreshHz * panel.lineTotal < wordLimit ∧
      panel.refreshHz * panel.lineTotal * panel.frameTotal < wordLimit
  · rw [if_pos hfits]
    exact ⟨rfl, Nat.mul_pos (Nat.mul_pos (Nat.pos_of_ne_zero hrefresh) hline) hframe, hfits.2⟩
  · exact absurd (if_neg hfits) hrate

end Panel

theorem Board.validate_eq_ok_iff {board : Board} :
    board.validate = .ok () ↔ board.panel.Programmable ∧ board.clockHz ≠ 0 ∧
      ¬ (board.output = .mipiDsi ∧ board.regs.hasSerialStage = false) := by
  rw [← Panel.validate_eq_ok_iff]
  unfold validate
  cases board.panel.validate with
  | error error => simp [bind, Except.bind]
  | ok _ =>
    by_cases hclock : board.clockHz = 0
    · simp [bind, Except.bind, hclock, throw, throwThe, MonadExceptOf.throw]
    · by_cases hserial : board.output = .mipiDsi ∧ board.regs.hasSerialStage = false
      · simp [bind, Except.bind, hclock, hserial, throw, throwThe, MonadExceptOf.throw]
      · simp [bind, Except.bind, hclock, hserial, pure, Except.pure]

end BootLogo
