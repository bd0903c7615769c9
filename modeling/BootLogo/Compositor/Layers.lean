import BootLogo.Bitmap.Image
import BootLogo.Compositor.Access

/-!
# The layers

* `showBase`: the base layer in one flat colour.
* `showLayer`: the overlay with a `Frame`, a picture that lies somewhere in memory.

A palette has entries of four bytes: blue, green, red and one that is not used. A layer takes an entry as
one word, red in the highest place. An entry that is cut short is dropped.
-/

namespace BootLogo

namespace Palette

/-- The word of one entry. -/
def word (blue green red : UInt8) : UInt32 :=
  .ofNat (blue.toNat + 256 * green.toNat + 65536 * red.toNat)

/-- The words of all entries that are there in full. -/
def words : Bytes → List UInt32
  | blue :: green :: red :: _ :: rest => word blue green red :: words rest
  | _ => []

end Palette

/-- A picture and the bus address of its first stored byte. -/
structure Frame where
  image : Bitmap.Image
  address : UInt32
  deriving DecidableEq

namespace Frame

def size (frame : Frame) : Size := ⟨frame.image.width, frame.image.height⟩

/-- The address of the row that is fetched first. -/
def origin (frame : Frame) : UInt32 := frame.address + .ofNat frame.image.origin

end Frame

namespace Compositor

/-- Shows the board's flat colour on the base layer. -/
def showBase (compositor : Compositor) (mode : CommitMode) : Script Unit := do
  let map := compositor.map
  setMode mode
  compositor.layerConfig .base 1 map.baseMode
  compositor.layerConfig .base 3 (Field.rgb compositor.board.logo.baseColor)
  if map.generation = .xlcdc then
    compositor.layerConfig .base 4 0
  compositor.commitDeferred .base mode

/-- Does one thing that a scaler needs. -/
def scalerStep (compositor : Compositor) : Scaler.Step → Script Unit
  | .config index value => compositor.layerConfig .heo index value
  | .taps axis table => compositor.request (.taps axis table)

/-- Position, sizes and colours of the overlay. -/
def describeLayer (compositor : Compositor) (image : Bitmap.Image) (placement : Placement) :
    Script Unit := do
  let map := compositor.map
  compositor.layerConfig .heo 0 map.heoCfg0
  compositor.layerConfig .heo 1 (map.formats.mode image.format)
  compositor.layerConfig .heo 2 (Field.pos (.ofInt placement.x) (.ofInt placement.y))
  compositor.layerConfig .heo 3
    (Field.size (.ofNat placement.scaled.width) (.ofNat placement.scaled.height))
  compositor.layerConfig .heo 4
    (Field.size (.ofNat placement.source.width) (.ofNat placement.source.height))
  if image.stride ≠ 0 then
    compositor.layerConfig .heo 5 (.ofInt image.stride)
  compositor.layerConfig .heo 9 (Field.rgb compositor.board.logo.baseColor)
  if image.format.isIndexed then
    compositor.request (.palette .heo (Palette.words image.palette))

/-- Where the overlay fetches, and how. -/
def pointLayer (compositor : Compositor) (origin : UInt32) : Script Unit := do
  compositor.layerWrite .heo (.layerAddr .heo) origin
  if compositor.map.usesDescriptors then
    let descriptor := Descriptor.loop compositor.descriptorAddress origin
    .modify fun state => { state with descriptor := descriptor }
    compositor.layerWrite .heo (.layerCtrl .heo) Field.dfetch
    compositor.layerWrite .heo (.layerNext .heo) descriptor.next
  compositor.layerConfig .heo 12 compositor.map.heoDma

/-- What is reported about a picture that is shown. -/
def shownEntry (format : PixelFormat) (placement : Placement) : Log.Entry :=
  let name := format.name
  let source := placement.source
  let scaled := placement.scaled
  .info (s!"lcdc: logo {source.width}x{source.height} {name} at ({placement.x}, {placement.y})" ++
    s!" as {scaled.width}x{scaled.height}")

/-- Shows a picture on the overlay. The controller has to be fully up. -/
def showLayer (compositor : Compositor) (frame : Frame) (placement : Placement) (mode : CommitMode) :
    Script Unit := do
  Script.ofExcept (placement.validate.mapError Error.geometry)
  let state ← Script.state
  if !compositor.isRunning state.power then
    Script.fail (.config .notRunning)
  setMode mode
  compositor.describeLayer frame.image placement
  if placement.scaling then
    Script.each compositor.scalerStep (compositor.scaler.program placement.xFactor placement.yFactor)
  compositor.pointLayer frame.origin
  compositor.commitDeferred .heo mode
  .say (shownEntry frame.image.format placement)

end Compositor

end BootLogo
