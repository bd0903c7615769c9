import BootLogo.Bitmap.PixelFormat
import BootLogo.Register
import BootLogo.Register.Field

/-!
# Register maps

Where a generation of controllers has its registers, and the values that differ between generations.
Three controllers are described: `sama5d2`, `sam9x60` and `sam9x7`.
-/

namespace BootLogo.Register

/-- The two generations: a layer of the first fetches through descriptors, one of the second by address
alone. -/
inductive Generation where
  | lcdc
  | xlcdc
  deriving DecidableEq

/-- On which side of a register write the controller has to be in sync. -/
inductive SyncPolicy where
  | beforeWrite
  | afterWrite
  deriving DecidableEq

/-- Offsets of the registers of one layer. -/
structure Block where
  enable : Nat
  addr : Nat
  ctrl : Option Nat
  next : Option Nat
  cfg : Nat
  clut : Option Nat
  /-- The layer's bit in the attribute update register. -/
  attr : UInt32
  deriving DecidableEq

/-- Input modes per pixel format. -/
structure FormatCodes where
  argb8888 : UInt32
  rgb888Packed : UInt32
  rgb1555 : UInt32
  rgb565 : UInt32
  clut8 : UInt32
  clut4 : UInt32
  clut1 : UInt32
  deriving DecidableEq

/-- The input mode of a layer for a pixel format. -/
def FormatCodes.mode (codes : FormatCodes) : PixelFormat → UInt32
  | .argb8888 => codes.argb8888
  | .rgb888Packed => codes.rgb888Packed
  | .rgb1555 => codes.rgb1555
  | .rgb565 => codes.rgb565
  | .clut8 => codes.clut8 ||| Field.cluten
  | .clut4 => codes.clut4 ||| Field.cluten
  | .clut1 => codes.clut1 ||| Field.cluten

/-- The fixed parts of the timing registers. -/
structure TimingProfile where
  /-- The divider field holds the divider less this. -/
  clkdivBias : Nat
  cfg0 : UInt32
  /-- CFG0 when the serializer supplies the pixel clock, if the divider can be bypassed. -/
  cfg0Bypass : Option UInt32
  /-- Whether the vertical back porch is written less one. -/
  vbpMinusOne : Bool
  cfg5 : UInt32
  /-- CFG6 without the compare value. -/
  cfg6 : UInt32
  deriving DecidableEq

/-- A generation of controllers as software sees it. -/
structure Map where
  name : String
  generation : Generation
  sync : SyncPolicy
  base : Block
  heo : Block
  attrUpdate : Option Nat
  attrStatus : Option Nat
  formats : FormatCodes
  /-- Input mode of the base layer. -/
  baseMode : UInt32
  heoCfg0 : UInt32
  /-- How the overlay fetches. -/
  heoDma : UInt32
  /-- What switches a layer on and applies what is staged for it. -/
  commit : UInt32
  /-- Index of the first horizontal and the first vertical coefficient among the overlay's registers. -/
  coefficients : Option (Nat × Nat)
  timing : TimingProfile
  deriving DecidableEq

namespace Map

/-- The enable request register. -/
def enableOffset : Nat := 0x20

/-- The disable request register. -/
def disableOffset : Nat := 0x24

/-- The status register. -/
def statusOffset : Nat := 0x28

def layer (map : Map) : Layer → Block
  | .base => map.base
  | .heo => map.heo

/-- Where a register is, if this generation has it. -/
def offset? (map : Map) : Register → Option Nat
  | .cfg index => some (4 * index)
  | .layerCfg layer index => some ((map.layer layer).cfg + 4 * index)
  | .layerEnable layer => some (map.layer layer).enable
  | .layerAddr layer => some (map.layer layer).addr
  | .layerCtrl layer => (map.layer layer).ctrl
  | .layerNext layer => (map.layer layer).next
  | .attrUpdate => map.attrUpdate

/-- Whether the overlay fetches through descriptors. -/
def usesDescriptors (map : Map) : Bool := map.heo.next.isSome

def hasScanStage (map : Map) : Bool := map.generation = .xlcdc

def hasSerialStage (map : Map) : Bool := map.generation = .xlcdc

end Map

/-! ## The first generation -/

def lcdcFormats : FormatCodes where
  argb8888 := 0x0C0
  rgb888Packed := 0x0A0
  rgb1555 := 0x040
  rgb565 := 0x030
  clut8 := 0x300
  clut4 := 0x200
  clut1 := 0x000

def lcdcTiming : TimingProfile where
  clkdivBias := 2
  cfg0 := Field.cgdispp ||| Field.cgdisheo ||| Field.cgdisbase ||| Field.clkpwmsel
  cfg0Bypass := none
  vbpMinusOne := false
  cfg5 := Field.guardtime 0 ||| Field.output16bpp ||| Field.dispdly ||| Field.vspdlys |||
    Field.vspol ||| Field.hspol
  cfg6 := Field.pwmps 6

/-- A layer's registers from `start`, its configuration `cfg` further on. -/
def lcdcBlock (start cfg : Nat) (clut : Option Nat) : Block where
  enable := start
  addr := start + 0x20
  ctrl := some (start + 0x24)
  next := some (start + 0x28)
  cfg := start + cfg
  clut := clut
  attr := 0

/-- A controller of the first generation with its layers at `base` and `heo`. -/
def lcdc (name : String) (base heo : Nat) : Map where
  name := name
  generation := .lcdc
  sync := .beforeWrite
  base := lcdcBlock base 0x2C none
  heo := lcdcBlock heo 0x4C (some 0x1200)
  attrUpdate := none
  attrStatus := none
  formats := lcdcFormats
  baseMode := lcdcFormats.rgb565
  heoCfg0 := Field.rotation
  heoDma := Field.ga 0xFF ||| Field.dma ||| Field.overlay ||| Field.gaen
  commit := Field.updateEnable ||| Field.channelEnable
  coefficients := some (17, 33)
  timing := lcdcTiming

def sama5d2 : Map := lcdc "sama5d2-lcdc" 0x40 0x340

def sam9x60 : Map := lcdc "sam9x60-lcdc" 0x60 0x360

/-! ## The second generation -/

def xlcdcFormats : FormatCodes where
  argb8888 := 0x120
  rgb888Packed := 0x100
  rgb1555 := 0x040
  rgb565 := 0x030
  clut8 := 0x300
  clut4 := 0x200
  clut1 := 0x000

def sam9x7 : Map where
  name := "sam9x7-xlcdc"
  generation := .xlcdc
  sync := .afterWrite
  base := { enable := 0x70, addr := 0x78, ctrl := none, next := none, cfg := 0x7C,
            clut := some 0x700, attr := 1 }
  heo := { enable := 0x370, addr := 0x378, ctrl := none, next := none, cfg := 0x390,
           clut := some 0x1300, attr := 0x8 }
  attrUpdate := some 0x3C
  attrStatus := some 0x40
  formats := xlcdcFormats
  baseMode := xlcdcFormats.rgb888Packed
  heoCfg0 := Field.blen 4 ||| Field.blencc 1
  heoDma := Field.plainDma
  commit := Field.layerOn
  coefficients := none
  timing := {
    clkdivBias := 0
    cfg0 := Field.clkpwmsel ||| Field.clkpol
    cfg0Bypass := some (Field.clkpwmsel ||| Field.clkbyp ||| Field.clkpol)
    vbpMinusOne := true
    cfg5 := Field.guardtime 0 ||| Field.dpi ||| Field.outputDpi24bpp ||| Field.dispdly |||
      Field.vspdlys ||| Field.vspol ||| Field.hspol
    cfg6 := Field.pwmpol ||| Field.pwmps 6 }

end BootLogo.Register
