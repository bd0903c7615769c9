import BootLogo.Compositor.Backlight
import BootLogo.Compositor.Layers
import BootLogo.Compositor.Timing

/-!
# Sequences

`bringUp` asks for every stage in order, `tearDown` gives them back in the reverse order. Each request is
acknowledged before the next is made, and the state says after each which stage is the last one up.

* `init`: a full start of the controller.
* `display`: a picture in the middle of the panel, lit.
-/

namespace BootLogo.Compositor

/-- Asks for a stage and waits until it is up. -/
def raise (compositor : Compositor) (stage : Stage) : Script Unit := do
  compositor.request (.enable stage.signal)
  .wait stage.up

/-- Gives a stage back and waits until it is down. -/
def lower (compositor : Compositor) (stage : Stage) : Script Unit := do
  compositor.request (.disable stage.signal)
  .wait stage.down

/-- Remembers that a request was acknowledged, and reports it. -/
def acknowledged (stage : Stage) (direction : String) (power : Power) : Script Unit := do
  .modify fun state => { state with power := power }
  let name := stage.name
  let reached := power.text
  .say (.debug s!"lcdc: {name} {direction}, state {reached}")

/-- Brings up every stage. -/
def bringUp (compositor : Compositor) : Script Unit :=
  Script.each
    (fun stage => do
      compositor.raise stage
      acknowledged stage "up" stage.reached)
    compositor.stages

/-- Takes every stage down; the backlight counts as dark once all are. -/
def tearDown (compositor : Compositor) : Script Unit := do
  Script.each
    (fun stage => do
      compositor.lower stage
      acknowledged stage "down" (compositor.powerBelow stage))
    compositor.stages.reverse
  .modify fun state => { state with lit := false }

/-- Starts the controller: off, timing, on, dark, base colour. Nothing is touched if the timing cannot
be programmed. -/
def init (compositor : Compositor) : Script Unit := do
  let _ ← Script.ofExcept (compositor.timingWords.mapError Error.config)
  compositor.tearDown
  compositor.programTiming
  compositor.bringUp
  compositor.setBacklight 0
  compositor.showBase compositor.board.logo.commit

/-- Shows a picture in the middle of the panel and lights the backlight. -/
def display (compositor : Compositor) (frame : Frame) : Script Placement := do
  let placement := compositor.place frame.size
  Script.ofExcept (placement.validate.mapError Error.geometry)
  compositor.showLayer frame placement compositor.board.logo.commit
  compositor.light compositor.board.logo.brightness
  return placement

end BootLogo.Compositor
