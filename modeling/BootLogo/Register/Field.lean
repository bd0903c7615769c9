/-!
# Bit fields of registers

Single bits are constants; a field of several bits is a function that puts a number into its place and
drops what does not fit. Names are those of the data sheets.
-/

namespace BootLogo.Field

/-! ## CFG0: clock -/

def clkpol : UInt32 := 1

def clkbyp : UInt32 := 0x2

def clkpwmsel : UInt32 := 0x8

def cgdisbase : UInt32 := 0x100

def cgdisheo : UInt32 := 0x800

def cgdispp : UInt32 := 0x2000

/-- The greatest number that the divider field holds. -/
def clkdivMax : Nat := 0xFF

def clkdiv (x : UInt32) : UInt32 := (x <<< (16 : UInt32)) &&& 0x00FF0000

/-! ## CFG1 to CFG4: pulses, porches, active area -/

def hspw (x : UInt32) : UInt32 := x &&& 0x3FF

def vspw (x : UInt32) : UInt32 := (x <<< (16 : UInt32)) &&& 0x03FF0000

def vfpw (x : UInt32) : UInt32 := x &&& 0x3FF

def vbpw (x : UInt32) : UInt32 := (x <<< (16 : UInt32)) &&& 0x03FF0000

def hfpw (x : UInt32) : UInt32 := x &&& 0x3FF

def hbpw (x : UInt32) : UInt32 := (x <<< (16 : UInt32)) &&& 0x03FF0000

def ppl (x : UInt32) : UInt32 := x &&& 0x7FF

def rpf (x : UInt32) : UInt32 := (x <<< (16 : UInt32)) &&& 0x07FF0000

/-! ## CFG5: output -/

def hspol : UInt32 := 1

def vspol : UInt32 := 0x2

def vspdlys : UInt32 := 0x4

def dispdly : UInt32 := 0x80

def output16bpp : UInt32 := 0x100

def outputDpi24bpp : UInt32 := 0x500

def dpi : UInt32 := 0x800

def guardtime (x : UInt32) : UInt32 := (x <<< (16 : UInt32)) &&& 0x00FF0000

/-! ## CFG6: pulse width modulation -/

def pwmpol : UInt32 := 0x10

def pwmcvalMask : UInt32 := 0xFF00

def pwmps (x : UInt32) : UInt32 := x &&& 0x7

def pwmcval (x : UInt32) : UInt32 := (x <<< (8 : UInt32)) &&& pwmcvalMask

/-! ## Layers -/

def channelEnable : UInt32 := 1

def updateEnable : UInt32 := 0x2

def layerOn : UInt32 := 1

/-- The descriptor says that the layer fetches a frame. -/
def dfetch : UInt32 := 1

def rotation : UInt32 := 0x1000

/-- Pixels are looked up in the palette. -/
def cluten : UInt32 := 1

def gaen : UInt32 := 0x20

def overlay : UInt32 := 0x80

def dma : UInt32 := 0x100

def plainDma : UInt32 := 1

/-- The scaler is on. -/
def scaleEnable : UInt32 := 0x80000000

def factorMask : UInt32 := 0x3FFF

def ga (x : UInt32) : UInt32 := (x &&& 0xFF) <<< (16 : UInt32)

def blen (x : UInt32) : UInt32 := x <<< (4 : UInt32)

def blencc (x : UInt32) : UInt32 := x <<< (8 : UInt32)

/-- A position on the panel. -/
def pos (x y : UInt32) : UInt32 := (x &&& 0x7FF) ||| ((y &&& 0x7FF) <<< (16 : UInt32))

/-- A size, each side less one. -/
def size (width height : UInt32) : UInt32 :=
  ((width - 1) &&& 0x7FF) ||| (((height - 1) &&& 0x7FF) <<< (16 : UInt32))

/-- A colour of eight bits each of red, green and blue. -/
def rgb (color : UInt32) : UInt32 := color &&& 0x00FFFFFF

/-! ## The ratio scaler: luma and chroma, horizontal and vertical -/

def vxsyen : UInt32 := 1

def vxscen : UInt32 := 0x2

def hxsyen : UInt32 := 0x10

def hxscen : UInt32 := 0x20

def vxsybicu : UInt32 := 0x40

def vxscbicu : UInt32 := 0x400000

def hxsybicu : UInt32 := 0x20

def hxscbicu : UInt32 := 0x200000

def vxsycfg (x : UInt32) : UInt32 := x &&& 0x3

def vxsccfg (x : UInt32) : UInt32 := (x &&& 0x3) <<< (16 : UInt32)

def hxsycfg (x : UInt32) : UInt32 := x &&& 0x3

def hxsccfg (x : UInt32) : UInt32 := (x &&& 0x3) <<< (16 : UInt32)

end BootLogo.Field
