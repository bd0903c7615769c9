import BootLogo.Bitmap.Header
import BootLogo.ConfigError
import BootLogo.Runs.Header
import BootLogo.Stage

/-!
# Why no logo is shown

Every way in which showing a logo can fail. None is tried again.
-/

namespace BootLogo

inductive Error where
  /-- The blob is not a stream that decodes. -/
  | runs (error : Runs.Error)
  /-- The picture is not a bitmap that can be shown. -/
  | bitmap (error : Bitmap.Error)
  /-- The picture does not fit a layer. -/
  | geometry (error : Geometry.Error)
  /-- The controller did not answer; `power` is the last stage it acknowledged. -/
  | timeout (power : Power) (expired : Timeout)
  /-- The board is not set up for it. -/
  | config (error : ConfigError)
  deriving DecidableEq

def Error.message : Error → String
  | .runs error => error.message
  | .bitmap error => error.message
  | .geometry error => "layer: " ++ error.message
  | .timeout power expired =>
    let waited := expired.message
    let state := power.text
    s!"lcdc: {waited} in state {state}"
  | .config error => error.message

end BootLogo
