import BootLogo.Bytes
import BootLogo.ConfigError

/-!
# Panels

The timing of a panel, in pixel clocks across and in lines down: the active area, the pulse and the two
porches of each direction, and the refresh rate. `Panel.validate` accepts what the timing registers of
every controller can hold.
-/

namespace BootLogo

/-- A width and a height in pixels. -/
structure Size where
  width : Nat
  height : Nat
  deriving DecidableEq

/-- The timing of a panel. -/
structure Panel where
  width : Nat
  height : Nat
  refreshHz : Nat
  /-- Horizontal front porch, back porch and pulse width. -/
  hfp : Nat
  hbp : Nat
  hpw : Nat
  /-- Vertical front porch, back porch and pulse width. -/
  vfp : Nat
  vbp : Nat
  vpw : Nat
  deriving DecidableEq

namespace Panel

/-- The greatest width and height of an active area or a layer. -/
def activeLimit : Nat := 2048

/-- The greatest pulse width or porch. -/
def porchLimit : Nat := 1024

def size (panel : Panel) : Size := ⟨panel.width, panel.height⟩

/-- Pixel clocks of a line, blanking included. -/
def lineTotal (panel : Panel) : Nat := panel.hpw + panel.hbp + panel.width + panel.hfp

/-- Lines of a frame, blanking included. -/
def frameTotal (panel : Panel) : Nat := panel.vpw + panel.vbp + panel.height + panel.vfp

/-- The pixel clock that the refresh rate asks for, if it fits into 32 bits. -/
def pixelRate? (panel : Panel) : Option Nat :=
  let lines := panel.refreshHz * panel.lineTotal
  if lines < wordLimit ∧ lines * panel.frameTotal < wordLimit then some (lines * panel.frameTotal) else none

/-- Refuses what the timing registers cannot hold. Only the vertical back porch may be zero. -/
def validate (panel : Panel) : Except ConfigError Unit :=
  if panel.width = 0 ∨ panel.height = 0 then .error .emptyActiveArea
  else if activeLimit < panel.width ∨ activeLimit < panel.height then .error .activeAreaTooLarge
  else if panel.hpw = 0 ∨ panel.vpw = 0 ∨ panel.hfp = 0 ∨ panel.vfp = 0 ∨ panel.hbp = 0 then
    .error .zeroPorch
  else if [panel.hfp, panel.hbp, panel.hpw, panel.vfp, panel.vbp, panel.vpw].any (porchLimit < ·) then
    .error .porchTooLarge
  else if panel.refreshHz = 0 ∨ panel.pixelRate? = none then .error .badRefreshRate
  else .ok ()

/-- A seven inch panel of 800 by 480 pixels at 60 Hz. -/
def wvga : Panel where
  width := 800
  height := 480
  refreshHz := 60
  hfp := 88
  hbp := 40
  hpw := 5
  vfp := 23
  vbp := 1
  vpw := 5

end Panel

end BootLogo
