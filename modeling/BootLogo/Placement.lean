import BootLogo.Bitmap.Header
import BootLogo.Panel
import BootLogo.Scaler

/-!
# Where a picture is shown

* `scaledSize`: the size on the panel.
* `centered`: the position that centres it; an axis that does not fit starts at zero and is clipped.
* `Placement.compute` is all of it together with the scaler's factors.
* `Placement.validate` refuses sizes that a layer cannot have.
-/

namespace BootLogo

/-- Where a picture is shown, and how large. -/
structure Placement where
  source : Size
  scaled : Size
  x : Int
  y : Int
  xFactor : UInt32
  yFactor : UInt32
  scaling : Bool
  deriving DecidableEq

/-- `size * (8 + scale) / 8` on both axes. -/
def scaledSize (size : Size) (scale : UInt8) : Size :=
  if scale = 0 then size
  else
    let eighths := 8 + scale.toNat
    ⟨size.width * eighths / 8, size.height * eighths / 8⟩

/-- The offset that centres `scaled` on `panel`. -/
def centre (panel scaled : Nat) : Int := ((panel - scaled) / 2 : Nat)

/-- The position that centres a picture on a panel. -/
def centered (panel scaled : Size) : Int × Int :=
  (centre panel.width scaled.width, centre panel.height scaled.height)

/-- Whether a layer can have the size. -/
def Size.fitsLayer (size : Size) : Bool :=
  0 < size.width ∧ 0 < size.height ∧ size.width ≤ Panel.activeLimit ∧ size.height ≤ Panel.activeLimit

namespace Placement

/-- Refuses a size that a layer cannot have, the source first. The sizes in the error are read as signed
32-bit numbers. -/
def validate (placement : Placement) : Except Geometry.Error Unit :=
  match [placement.source, placement.scaled].find? (!·.fitsLayer) with
  | some size => .error (.tooLarge (Bytes.signed size.width) (Bytes.signed size.height))
  | none => .ok ()

/-- A picture of size `image` in the middle of `panel`, enlarged by `scale`. -/
def compute (image panel : Size) (scale : UInt8) (scaler : Scaler) : Placement :=
  let scaled := scaledSize image scale
  let (x, y) := centered panel scaled
  let scaling := scaled ≠ image
  { source := image
    scaled := scaled
    x := x
    y := y
    xFactor := if scaling then scaler.factor image.width scaled.width .horizontal else 0
    yFactor := if scaling then scaler.factor image.height scaled.height .vertical else 0
    scaling := scaling }

end Placement

end BootLogo
