/-!
# Pixel formats of a layer

A format fixes how many bits a pixel has, and whether they are a colour or an index into a palette.
-/

namespace BootLogo

inductive PixelFormat where
  | argb8888
  | rgb888Packed
  | rgb1555
  | rgb565
  | clut8
  | clut4
  | clut1
  deriving DecidableEq

namespace PixelFormat

def name : PixelFormat → String
  | .argb8888 => "Argb8888"
  | .rgb888Packed => "Rgb888Packed"
  | .rgb1555 => "Rgb1555"
  | .rgb565 => "Rgb565"
  | .clut8 => "Clut8"
  | .clut4 => "Clut4"
  | .clut1 => "Clut1"

def bitsPerPixel : PixelFormat → Nat
  | .argb8888 => 32
  | .rgb888Packed => 24
  | .rgb1555 | .rgb565 => 16
  | .clut8 => 8
  | .clut4 => 4
  | .clut1 => 1

/-- How many palette entries a pixel can index; none for true colour. -/
def paletteEntries : PixelFormat → Nat
  | .clut8 => 256
  | .clut4 => 16
  | .clut1 => 2
  | _ => 0

/-- Whether a pixel is an index into a palette. -/
def isIndexed (format : PixelFormat) : Bool := format.paletteEntries ≠ 0

end PixelFormat

end BootLogo
