import BootLogo.Proofs.Compositor.Footprint
import BootLogo.Proofs.Hardware.Written
import BootLogo.Proofs.Script.Triple

/-!
# How bright the backlight is

`Lit`: the backlight was last driven to a level. Driving it does that (`setBacklight_lit`); whatever writes no
compare value and drives no pin leaves it so (`lit_triple`).
-/

namespace BootLogo.Compositor

open Script

variable {σ α : Type} {compositor : Compositor} {machine : Machine σ} {level : UInt8}
  {moment later : Moment σ} {trace more : Trace}

/-- The backlight was last driven to a level: by the compare value, or by the pin. -/
def Lit (compositor : Compositor) (level : UInt8) (trace : Trace) : Prop :=
  match compositor.board.backlight with
  | .pwm => ∃ word, lastWritten? (.cfg 6) trace.calls = some word ∧
      word &&& Field.pwmcvalMask = Field.pwmcval level.toUInt32
  | .gpio => trace.pins.getLast? = some (decide (level ≠ 0))

theorem Lit.append (h : compositor.Lit level trace) (hcalls : lastWritten? (.cfg 6) more.calls = none)
    (hpins : more.pins = []) : compositor.Lit level (trace ++ more) := by
  have hsame : (trace ++ more).pins = trace.pins := by
    rw [Trace.pins, List.filterMap_append]
    exact (congrArg (trace.pins ++ ·) hpins).trans (List.append_nil _)
  unfold Lit at h ⊢
  split at h
  · obtain ⟨word, hword, hlevel⟩ := h
    refine ⟨word, ?_, hlevel⟩
    rw [Trace.calls_append, lastWritten?_append, hcalls, hword]
    rfl
  · rwa [hsame]

/-- The backlight is not driven. -/
def undriven : Limits where
  event
    | .call made => made.written? (.cfg 6) = none
    | .pin _ => False
    | _ => True
  change _ _ := True
  error _ := True

theorem programming_le_undriven (layer : Layer) (refusals : Error → Prop) :
    compositor.programming layer refusals ≤ undriven := by
  refine ⟨fun event hevent => ?_, fun _ _ _ => trivial, fun _ _ => trivial⟩
  cases event with
  | call made =>
    cases made with
    | write register value =>
      refine if_neg ?_
      rintro rfl
      exact absurd hevent.2 (by simp [Call.Programs, Register.layer?])
    | _ => rfl
  | pin high => exact hevent
  | _ => trivial

theorem Lit.of_step {hardware : Hardware σ} (h : Step hardware undriven moment later)
    (hlit : compositor.Lit level moment.trace) : compositor.Lit level later.trace := by
  cases h with
  | call hcall => exact hlit.append ((lastWritten?_cons _).trans hcall) rfl
  | pin hpin => exact hpin.elim
  | store hchange => exact hlit
  | _ => exact hlit.append rfl rfl

theorem lit_triple {s : Script α} (hs : ∀ state, s.Within undriven state) :
    Triple machine (fun moment => compositor.Lit level moment.trace) s
      (fun _ moment => compositor.Lit level moment.trace)
      fun _ moment => compositor.Lit level moment.trace :=
  Within.triple hs fun hstep => Lit.of_step hstep

theorem pwmcval_read (config level : UInt32) :
    ((config &&& ~~~Field.pwmcvalMask) ||| Field.pwmcval level) &&& Field.pwmcvalMask =
      Field.pwmcval level := by
  rw [Field.pwmcval, ← UInt32.toBitVec_inj]
  apply BitVec.eq_of_getLsbD_eq
  intro bit hbit
  simp only [UInt32.toBitVec_and, UInt32.toBitVec_or, UInt32.toBitVec_not, BitVec.getLsbD_and,
    BitVec.getLsbD_or, BitVec.getLsbD_not]
  cases Field.pwmcvalMask.toBitVec.getLsbD bit <;> simp

theorem lit_of_written {word : UInt32} (hbacklight : compositor.board.backlight = .pwm)
    (hword : word &&& Field.pwmcvalMask = Field.pwmcval level.toUInt32) (trace : Trace) :
    compositor.Lit level (trace ++ [.call (.write (.cfg 6) word)]) := by
  unfold Lit
  rw [hbacklight, Trace.calls_append, lastWritten?_append]
  exact ⟨word, rfl, hword⟩

theorem lit_of_driven (hbacklight : compositor.board.backlight = .gpio) (trace : Trace) :
    compositor.Lit level (trace ++ [.pin (decide (level ≠ 0))]) := by
  unfold Lit
  rw [hbacklight]
  show (Trace.pins (trace ++ [.pin (decide (level ≠ 0))])).getLast? = _
  rw [Trace.pins, List.filterMap_append]
  exact List.getLast?_concat

theorem compare_lit (hbacklight : compositor.board.backlight = .pwm) (config : UInt32) :
    Triple machine (fun _ => True)
      (perform (.write (.cfg 6)
        ((config &&& ~~~Field.pwmcvalMask) ||| Field.pwmcval level.toUInt32)))
      (fun _ moment => compositor.Lit level moment.trace) fun _ _ => True := by
  refine .perform fun moment _ => ?_
  have hwritten := lit_of_written hbacklight (pwmcval_read config level.toUInt32) moment.trace
  refine hwritten.append ?_ ?_
  · rw [Trace.calls_map_note]
    rfl
  · simp [Trace.pins]

theorem drivePin_lit (hbacklight : compositor.board.backlight = .gpio) :
    Triple machine (fun _ => True) (drivePin (decide (level ≠ 0)))
      (fun _ moment => compositor.Lit level moment.trace) fun _ _ => True := by
  intro moment _
  rw [drivePin, Machine.play_pin]
  by_cases htaken : (machine.hardware.drive (decide (level ≠ 0)) moment.world).1 = true
  · have hdriven : (moment.drive machine.hardware (decide (level ≠ 0))).trace =
        moment.trace ++ [.pin (decide (level ≠ 0))] :=
      congrArg (fun event => moment.trace ++ [event]) (if_pos htaken)
    rw [if_pos htaken, Machine.play_done]
    simp only [hdriven]
    exact lit_of_driven hbacklight moment.trace
  · rw [if_neg htaken]
    trivial

theorem setBacklight_lit (level : UInt8) : Triple machine (fun _ => True) (compositor.setBacklight level)
    (fun _ moment => compositor.Lit level moment.trace) fun _ _ => True := by
  have hkeep {s : Script Unit} (hs : ∀ state, s.Within undriven state) :
      Triple machine (fun moment => compositor.Lit level moment.trace) s
        (fun _ moment => compositor.Lit level moment.trace) fun _ _ => True :=
    (lit_triple hs).halting fun _ _ _ => trivial
  have hlit : Triple machine (fun moment => compositor.Lit level moment.trace)
      (if level ≠ 0 then Script.modify fun state => { state with lit := true } else pure ())
      (fun _ moment => compositor.Lit level moment.trace) fun _ _ => True :=
    hkeep fun _ => .when fun _ => ⟨trivial, trivial⟩
  refine .cond (fun hpwm => Triple.bind ?_ fun _ => hlit) fun hpwm => Triple.bind ?_ fun _ => hlit
  · rw [hpwm]
    -- only what comes after the compare value has to leave it alone
    have hafter : Triple machine (fun moment => compositor.Lit level moment.trace) compositor.syncAfter
        (fun _ moment => compositor.Lit level moment.trace) fun _ _ => True :=
      hkeep fun _ => .when fun _ => ⟨trivial, trivial⟩
    refine Triple.bind .any fun _ => Triple.bind (Triple.bind .any fun config => ?_) fun _ => hafter
    exact (compare_lit hpwm config).bind fun _ => hkeep fun _ => trivial
  · cases hkind : compositor.board.backlight with
    | pwm => exact absurd hkind hpwm
    | gpio => exact (drivePin_lit hkind).bind fun _ => hkeep fun _ => trivial

theorem light_lit (level : UInt8) : Triple machine (fun _ => True) (compositor.light level)
    (fun _ moment => compositor.Lit level moment.trace) fun _ _ => True := by
  refine Triple.bind .any fun _ => .cond (fun _ => ?_) fun _ => setBacklight_lit level
  exact Triple.bind .any fun _ => Triple.bind .any fun _ => setBacklight_lit level

end BootLogo.Compositor
