import BootLogo.Bitmap.Header

/-!
# Rows of a bitmap in memory

Rows are stored one after another, each filled up to a multiple of four bytes. A layer fetches the
picture from the bottom row up: it reads the bytes of a row and then moves its address by a signed
stride. `Layout.ofSize` gives the offset at which it starts and the stride: the padding when the bottom
row is stored first, back over two rows when it is stored last.
-/

namespace BootLogo.Bitmap

/-- Where the rows of a picture lie. -/
structure Layout where
  width : Nat
  height : Nat
  /-- Bytes of a row that hold pixels. -/
  rowBytes : Nat
  /-- Bytes that fill the row up. -/
  rowPadding : Nat
  /-- Offset of the row that is fetched first. -/
  origin : Nat
  /-- Added to the fetch address after each row. -/
  stride : Int
  deriving DecidableEq

namespace Layout

/-- The greatest width and height of a picture. -/
def sizeLimit : Nat := 65535

/-- The layout of a picture whose header states this width and height, the sign of the height giving
the row order. -/
def ofSize (format : PixelFormat) (width height : Int) : Except Geometry.Error Layout :=
  if width ≤ 0 then .error (.nonPositiveWidth width)
  else if height = 0 then .error .zeroHeight
  else if sizeLimit < width.natAbs ∨ sizeLimit < height.natAbs then .error (.tooLarge width height)
  else
    let rowBytes := (width.natAbs * format.bitsPerPixel + 7) / 8
    let rowPadding := (4 - rowBytes % 4) % 4
    .ok {
      width := width.natAbs
      height := height.natAbs
      rowBytes := rowBytes
      rowPadding := rowPadding
      origin := if height < 0 then (rowBytes + rowPadding) * (height.natAbs - 1) else 0
      stride := if height < 0 then -((2 * rowBytes + rowPadding : Nat) : Int) else rowPadding }

/-- The bytes that a stored row takes, padding included. -/
def rowStride (layout : Layout) : Nat := layout.rowBytes + layout.rowPadding

/-- The bytes that all rows take. -/
def region (layout : Layout) : Nat := layout.rowStride * layout.height

end Layout

end BootLogo.Bitmap
