/-!
# Mistakes in a configuration

Why a panel, a board or a controller cannot be used as asked, apart from time-outs and bad pictures.
-/

namespace BootLogo

inductive ConfigError where
  | emptyActiveArea
  | activeAreaTooLarge
  | zeroPorch
  | porchTooLarge
  | badRefreshRate
  | noClock
  | noCommandStage
  | wrongController
  | wrongWiring
  | clockOutOfRange
  | noClockBypass
  | notRunning
  | pinRefused
  deriving DecidableEq

def ConfigError.message : ConfigError → String
  | .emptyActiveArea => "panel: empty active area"
  | .activeAreaTooLarge => "panel: active area exceeds 2048"
  | .zeroPorch => "panel: pulse width or porch is zero"
  | .porchTooLarge => "panel: porch exceeds 1024"
  | .badRefreshRate => "panel: bad refresh rate"
  | .noClock => "board: no controller clock"
  | .noCommandStage => "board: controller has no DSI command stage"
  | .wrongController => "lcdc: controller does not match board"
  | .wrongWiring => "backlight: wiring does not match board"
  | .clockOutOfRange => "lcdc: pixel clock out of divider range"
  | .noClockBypass => "lcdc: no clock bypass for LVDS"
  | .notRunning => "lcdc: controller not running"
  | .pinRefused => "backlight: gpio write failed"

end BootLogo
