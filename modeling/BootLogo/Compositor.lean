import BootLogo.Error
import BootLogo.Hardware
import BootLogo.Placement

/-!
# The compositor

Two layers make the picture: the base layer shows one flat colour, the overlay shows the logo in front of
it. A `Compositor` is what has been decided about them before the first call: the board, the registers of
its controller, the scaler, and where the overlay's frame descriptor is.
-/

namespace BootLogo

structure Compositor where
  board : Board
  map : Register.Map
  scaler : Scaler
  /-- The bus address of the overlay's frame descriptor. -/
  descriptorAddress : UInt32
  deriving DecidableEq

namespace Compositor

/-- The compositor for a board, on a controller with the registers `map` and a backlight that is wired
as `wired`. Refuses a bad board, and a controller or a backlight that is not the board's. -/
def assemble (board : Board) (map : Register.Map) (wired : BacklightKind) (descriptorAddress : UInt32) :
    Except ConfigError Compositor := do
  board.validate
  if map.name ≠ board.regs.name then throw .wrongController
  if wired ≠ board.backlight then throw .wrongWiring
  return ⟨board, map, map.generation.scaler, descriptorAddress⟩

/-- What is reported once a compositor is assembled. -/
def entry (compositor : Compositor) : Log.Entry :=
  let map := compositor.map.name
  let board := compositor.board.name
  let scaler := compositor.scaler.name
  .info s!"lcdc: {map} on {board}, {scaler} scaler"

/-- The stages that the controller goes through. -/
def stages (compositor : Compositor) : List Stage :=
  BootLogo.stages compositor.map compositor.board.output compositor.board.backlight

/-- Where the controller stands once it is fully up. -/
def runningPower (compositor : Compositor) : Power :=
  BootLogo.runningPower compositor.map compositor.board.output compositor.board.backlight

/-- Where the controller stands once `stage` is down again. -/
def powerBelow (compositor : Compositor) (stage : Stage) : Power :=
  BootLogo.powerBelow compositor.map compositor.board.output compositor.board.backlight stage

/-- Whether the controller is fully up. -/
def isRunning (compositor : Compositor) (power : Power) : Bool :=
  power ≠ .off ∧ power = compositor.runningPower

/-- Where a logo of size `image` is shown. -/
def place (compositor : Compositor) (image : Size) : Placement :=
  .compute image compositor.board.panel.size compositor.board.logo.scale compositor.scaler

end Compositor

end BootLogo
