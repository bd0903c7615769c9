import BootLogo.Bitmap.BitOrder
import BootLogo.Bitmap.Layout

/-!
# Bitmaps as a layer sees them

* `inspect` checks everything about a bitmap and finds its pixels.
* `interpret` brings the pixels into the layer's bit order where they lie and returns the `Image`.
* `Image.fetchRows` are the rows as the layer reads them.
-/

namespace BootLogo.Bitmap

/-- A picture that a layer can show. -/
structure Image where
  format : PixelFormat
  /-- All stored rows, padding included. -/
  pixels : Bytes
  /-- Entries of four bytes: blue, green, red, unused. -/
  palette : Bytes
  width : Nat
  height : Nat
  rowBytes : Nat
  rowPadding : Nat
  /-- Offset in `pixels` of the row that is fetched first. -/
  origin : Nat
  /-- Added to the fetch address after each row. -/
  stride : Int
  rowOrder : RowOrder
  /-- The last byte of a row holds fewer pixels than it could. -/
  misaligned : Bool
  deriving DecidableEq

namespace Image

def rowStride (image : Image) : Nat := image.rowBytes + image.rowPadding

/-- Where the fetch address stands, relative to the first stored byte, at row `index`. -/
def cursor (image : Image) (index : Nat) : Int :=
  image.origin + index * (image.rowBytes + image.stride)

/-- Whether a row at `place` lies inside `size` stored bytes. -/
def inside (size rowBytes : Nat) (place : Int) : Bool :=
  0 ≤ place ∧ place.toNat + rowBytes ≤ size

/-- The rows in the order the layer reads them, up to the first that is not stored in full. -/
def fetchRows (image : Image) : List Bytes :=
  let stored := image.pixels.toArray
  let places :=
    ((List.range image.height).map image.cursor).takeWhile (inside stored.size image.rowBytes)
  places.map fun place => (stored.extract place.toNat (place.toNat + image.rowBytes)).toList

end Image

/-- What is known about a bitmap once it has been checked. -/
structure Info where
  header : Header
  format : PixelFormat
  layout : Layout
  deriving DecidableEq

/-- The offset of the first pixel byte. -/
def Info.start (info : Info) : Nat := info.header.pixelOffset

/-- The offset behind the last pixel byte, padding included. -/
def Info.stop (info : Info) : Nat := info.start + info.layout.region

/-- Whether the last byte of a row holds fewer pixels than it could. -/
def Info.misaligned (info : Info) : Bool :=
  match info.format with
  | .clut4 => info.layout.width % 2 ≠ 0
  | .clut1 => info.layout.width % 8 ≠ 0
  | _ => false

/-- Checks a bitmap: signature, header, format, size, and that the pixels are there. -/
def inspect (bytes : Bytes) : Except Error Info := do
  let header ← Header.parse bytes
  let format ← header.pixelFormat
  let layout ← (Layout.ofSize format header.width header.height).mapError Error.geometry
  let info : Info := ⟨header, format, layout⟩
  if bytes.length < info.stop then
    throw (.geometry (.pixelsOutOfBounds info.stop bytes.length))
  return info

/-- The bytes of `bytes` from `start` up to `stop`. -/
def slice (bytes : Bytes) (start stop : Nat) : Bytes := (bytes.drop start).take (stop - start)

/-- The palette: what follows the header, up to the pixels and to as many entries as a pixel can index.
Nothing if that range is empty or the wrong way round. -/
def Info.palette (info : Info) (bytes : Bytes) : Bytes :=
  let start := info.header.headerSize + Header.fileHeaderSize
  slice bytes start (min info.start (start + info.format.paletteEntries * 4))

/-- The container with its pixels in the layer's bit order. -/
def Info.fixed (info : Info) (bytes : Bytes) : Bytes :=
  bytes.take info.start ++ BitOrder.fix info.format (slice bytes info.start info.stop) ++
    bytes.drop info.stop

/-- The picture in a container whose pixels are in the layer's bit order. -/
def Info.image (info : Info) (bytes : Bytes) : Image where
  format := info.format
  pixels := slice bytes info.start info.stop
  palette := info.palette bytes
  width := info.layout.width
  height := info.layout.height
  rowBytes := info.layout.rowBytes
  rowPadding := info.layout.rowPadding
  origin := info.layout.origin
  stride := info.layout.stride
  rowOrder := info.header.rowOrder
  misaligned := info.misaligned

/-- What is reported about a bitmap that is shown. -/
def Info.log (info : Info) : Log :=
  let width := info.layout.width
  let height := info.layout.height
  let bits := info.format.bitsPerPixel
  let format := info.format.name
  let order := info.header.rowOrder.name
  let rowBytes := info.layout.rowBytes
  let rowPadding := info.layout.rowPadding
  let stride := info.layout.stride
  let odd : Log :=
    if info.misaligned then
      [.warn s!"bmp: width {width} does not fill a whole byte at {bits} bpp"]
    else []
  odd ++
    [.debug (s!"bmp: {width}x{height} {format} {order} row={rowBytes}+{rowPadding}" ++
      s!" stride={stride}")]

/-- What interpreting a bitmap comes to: what is known about it and the picture, or the error, and the
bytes afterwards. -/
structure Interpretation where
  result : Except Error (Info × Image)
  bytes : Bytes

/-- Brings the pixels of a bitmap into the layer's bit order and returns the picture. A bitmap that is
refused stays as it is. -/
def interpret (bytes : Bytes) : Interpretation :=
  match inspect bytes with
  | .error error => ⟨.error error, bytes⟩
  | .ok info =>
    let fixed := info.fixed bytes
    ⟨.ok (info, info.image fixed), fixed⟩

/-- What interpreting a bitmap reports. -/
def Interpretation.log (interpretation : Interpretation) : Log :=
  match interpretation.result with
  | .error error => error.log
  | .ok (info, _) => info.log

end BootLogo.Bitmap
