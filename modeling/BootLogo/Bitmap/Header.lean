import BootLogo.Bytes
import BootLogo.Log
import BootLogo.Bitmap.PixelFormat

/-!
# Bitmap headers

A bitmap file starts with the letters `BM` and 54 bytes of header, 66 if it carries colour masks.

* `Header.parse` reads the fields.
* `Header.pixelFormat` picks the layer format for depth, compression and masks.
* `Error` is every reason why a bitmap is not shown, `Geometry.Error` the part of it that is about sizes.
-/

namespace BootLogo

/-- Why a size cannot be shown. -/
inductive Geometry.Error where
  | nonPositiveWidth (width : Int)
  | zeroHeight
  | tooLarge (width height : Int)
  | pixelsOutOfBounds (stop size : Nat)
  deriving DecidableEq

def Geometry.Error.message : Geometry.Error → String
  | .nonPositiveWidth width => s!"width {width} not positive"
  | .zeroHeight => "zero height"
  | .tooLarge width height => s!"{width}x{height} exceeds layer limits"
  | .pixelsOutOfBounds stop size => s!"pixel data ends at {stop} but buffer holds {size}"

namespace Bitmap

/-- Which bits of a pixel are red, green and blue. -/
structure Masks where
  red : Nat
  green : Nat
  blue : Nat
  deriving DecidableEq

def Masks.text (masks : Masks) : String :=
  let red := Hex.marked masks.red
  let green := Hex.marked masks.green
  let blue := Hex.marked masks.blue
  s!"r={red} g={green} b={blue}"

/-- Why a bitmap cannot be shown. -/
inductive Error where
  | badSignature
  | truncated (needed available : Nat)
  | unsupported (bitsPerPixel compression : Nat) (masks : Option Masks)
  | geometry (error : Geometry.Error)
  deriving DecidableEq

namespace Error

def message : Error → String
  | .badSignature => "bmp: no 'BM' signature"
  | .truncated needed available => s!"bmp: header needs {needed} bytes, have {available}"
  | .unsupported bitsPerPixel compression none =>
    s!"bmp: unsupported {bitsPerPixel} bpp, compression {compression}"
  | .unsupported bitsPerPixel compression (some masks) =>
    let bits := masks.text
    s!"bmp: unsupported {bitsPerPixel} bpp, compression {compression}, masks {bits}"
  | .geometry error => "bmp: " ++ error.message

/-- What is reported when a bitmap is refused: only an unsupported format is, and a compressed palette
image is named as such first. -/
def log (error : Error) : Log :=
  match error with
  | .unsupported bitsPerPixel compression _ =>
    let palette : Log :=
      if (bitsPerPixel = 1 ∨ bitsPerPixel = 4 ∨ bitsPerPixel = 8) ∧ compression ≠ 0 then
        [.warn (s!"bmp: {bitsPerPixel} bpp palette image with compression {compression}" ++
          ", only uncompressed is shown")]
      else []
    palette ++ [.warn error.message]
  | _ => []

end Error

/-- Whether the lowest row of the picture is stored first or last. -/
inductive RowOrder where
  | bottomUp
  | topDown
  deriving DecidableEq

def RowOrder.name : RowOrder → String
  | .bottomUp => "BottomUp"
  | .topDown => "TopDown"

/-- The fields of a bitmap's header. -/
structure Header where
  fileSize : Nat
  pixelOffset : Nat
  headerSize : Nat
  width : Int
  height : Int
  planes : Nat
  bitsPerPixel : Nat
  compression : Nat
  colorsUsed : Nat
  masks : Option Masks
  deriving DecidableEq

/-- Compression zero: pixels as they are. -/
def uncompressed : Nat := 0

/-- Compression three: pixels as they are, colour masks behind the header. -/
def masked : Nat := 3

/-- Whether `bytes` starts with the letters `BM`. -/
def isSigned (bytes : Bytes) : Bool := bytes.take 2 = [0x42, 0x4D]

/-- The size that the file header states, if `bytes` is a bitmap. -/
def statedSize? (bytes : Bytes) : Option Nat :=
  if 6 ≤ bytes.length ∧ isSigned bytes then some (bytes.word 2) else none

namespace Header

/-- The bytes that the file header takes. -/
def fileHeaderSize : Nat := 14

/-- The bytes that a header without masks takes. -/
def plainSize : Nat := 54

/-- The bytes that a header with masks takes. -/
def maskedSize : Nat := plainSize + 12

/-- The fields of a header that is there in full. -/
def fields (bytes : Bytes) : Header where
  fileSize := bytes.word 2
  pixelOffset := bytes.word 10
  headerSize := bytes.word 14
  width := Bytes.signed (bytes.word 18)
  height := Bytes.signed (bytes.word 22)
  planes := bytes.half 26
  bitsPerPixel := bytes.half 28
  compression := bytes.word 30
  colorsUsed := bytes.word 46
  masks :=
    if bytes.word 30 = masked then some ⟨bytes.word 54, bytes.word 58, bytes.word 62⟩ else none

/-- The header of the bitmap `bytes`. -/
def parse (bytes : Bytes) : Except Error Header :=
  if !isSigned bytes then .error .badSignature
  else if bytes.length < plainSize then .error (.truncated plainSize bytes.length)
  else if bytes.word 30 = masked ∧ bytes.length < maskedSize then
    .error (.truncated maskedSize bytes.length)
  else .ok (fields bytes)

/-- The layer format of the pixels, if there is one. -/
def pixelFormat? (header : Header) : Option PixelFormat :=
  if header.compression = uncompressed then
    match header.bitsPerPixel with
    | 32 => some .argb8888
    | 24 => some .rgb888Packed
    | 16 => some .rgb1555
    | 8 => some .clut8
    | 4 => some .clut4
    | 1 => some .clut1
    | _ => none
  else
    match header.bitsPerPixel, header.masks with
    | 32, some ⟨0xFF0000, 0xFF00, 0xFF⟩ => some .argb8888
    | 16, some ⟨0x7C00, 0x03E0, 0x001F⟩ => some .rgb1555
    | 16, some ⟨0xF800, 0x07E0, 0x001F⟩ => some .rgb565
    | _, _ => none

/-- The layer format of the pixels. -/
def pixelFormat (header : Header) : Except Error PixelFormat :=
  match header.pixelFormat? with
  | some format => .ok format
  | none => .error (.unsupported header.bitsPerPixel header.compression header.masks)

/-- A negative height means that the topmost row comes first. -/
def rowOrder (header : Header) : RowOrder := if header.height < 0 then .topDown else .bottomUp

end Header

end Bitmap

end BootLogo
