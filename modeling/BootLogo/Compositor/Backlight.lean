import BootLogo.Compositor.Access

/-!
# The backlight

A backlight is driven by the controller's pulse width modulation, as bright as the level says, or by a
pin that any level but zero switches on.
-/

namespace BootLogo

/-- Drives a backlight to a level. -/
def Backlight.set (kind : BacklightKind) (level : UInt8) : Script Unit := do
  match kind with
  | .pwm =>
    let config ← Script.readConfig (.cfg 6)
    .perform (.write (.cfg 6)
      ((config &&& ~~~Field.pwmcvalMask) ||| Field.pwmcval level.toUInt32))
  | .gpio => .drivePin (level ≠ 0)
  .say (.debug s!"lcdc: backlight {level.toNat}")

namespace Compositor

/-- Drives the backlight, in sync with the controller if that drives it. -/
def setBacklight (compositor : Compositor) (level : UInt8) : Script Unit := do
  let step := Backlight.set compositor.board.backlight level
  if compositor.board.backlight = .pwm then compositor.synced step else step
  if level ≠ 0 then
    .modify fun state => { state with lit := true }

/-- Drives the backlight; before it first comes on the panel gets the time that it needs. -/
def light (compositor : Compositor) (level : UInt8) : Script Unit := do
  let state ← Script.state
  let ms := compositor.board.logo.backlightDelayMs
  if level ≠ 0 ∧ !state.lit ∧ 0 < ms then
    .say (.debug s!"lcdc: backlight in {ms} ms")
    .delay ms
  compositor.setBacklight level

end Compositor

end BootLogo
