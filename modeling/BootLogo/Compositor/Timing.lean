import BootLogo.Compositor.Access

/-!
# Timing

The panel's timing as the controller's first registers hold it.

* `clockDivider`: the divider nearest to the clock that the panel asks for.
* `timingWords`: the words; most fields hold a number less one.
* `programTiming` writes them.
-/

namespace BootLogo

/-- The words of the timing registers. -/
structure TimingWords where
  /-- CFG0 to CFG5. -/
  config : List UInt32
  /-- CFG6, if the controller drives the backlight. -/
  pwm : Option UInt32
  deriving DecidableEq

/-- The writes of the timing registers, in order. -/
def TimingWords.writes (words : TimingWords) : List (Nat × UInt32) :=
  words.config.zipIdx.map Prod.swap ++ (words.pwm.map fun word => (6, word)).toList

namespace Compositor

/-- The integer nearest to `clock / pixel`; a half goes down. -/
def nearestDivider (clock pixel : Nat) : Nat :=
  if pixel / 2 < clock % pixel then clock / pixel + 1 else clock / pixel

/-- What the controller's clock is divided by to get the pixel clock. -/
def clockDivider (compositor : Compositor) : Except ConfigError Nat :=
  match compositor.board.panel.pixelRate? with
  | none => .error .badRefreshRate
  | some pixel =>
    let divider := nearestDivider compositor.board.clockHz pixel
    let bias := compositor.map.timing.clkdivBias
    if divider < max bias 1 ∨ Field.clkdivMax < divider - bias then .error .clockOutOfRange
    else .ok divider

/-- CFG0: the divider, or its bypass where a serializer supplies the pixel clock. -/
def clockWord (compositor : Compositor) : Except ConfigError UInt32 :=
  let timing := compositor.map.timing
  if compositor.board.output = .lvds then
    match timing.cfg0Bypass with
    | some word => .ok word
    | none => .error .noClockBypass
  else do
    let divider ← compositor.clockDivider
    return timing.cfg0 ||| Field.clkdiv (.ofNat (divider - timing.clkdivBias))

/-- A number as a field that holds it less one. -/
def lessOne (value : Nat) : UInt32 := .ofNat (value - 1)

/-- The words of the timing registers. -/
def timingWords (compositor : Compositor) : Except ConfigError TimingWords := do
  let panel := compositor.board.panel
  let timing := compositor.map.timing
  let clock ← compositor.clockWord
  let vbp := if timing.vbpMinusOne then lessOne panel.vbp else .ofNat panel.vbp
  return {
    config := [
      clock,
      Field.vspw (lessOne panel.vpw) ||| Field.hspw (lessOne panel.hpw),
      Field.vbpw vbp ||| Field.vfpw (lessOne panel.vfp),
      Field.hbpw (lessOne panel.hbp) ||| Field.hfpw (lessOne panel.hfp),
      Field.rpf (lessOne panel.height) ||| Field.ppl (lessOne panel.width),
      timing.cfg5]
    pwm :=
      match compositor.board.backlight with
      | .pwm => some (timing.cfg6 ||| Field.pwmcval 0)
      | .gpio => none }

/-- Loads the timing registers. The controller should be off. -/
def programTiming (compositor : Compositor) : Script Unit := do
  let words ← Script.ofExcept (compositor.timingWords.mapError Error.config)
  Script.each (fun (index, word) => compositor.write (.cfg index) word) words.writes
  let width := compositor.board.panel.width
  let height := compositor.board.panel.height
  let refresh := compositor.board.panel.refreshHz
  .say (.debug s!"lcdc: timing {width}x{height} @ {refresh} Hz")

end Compositor

end BootLogo
