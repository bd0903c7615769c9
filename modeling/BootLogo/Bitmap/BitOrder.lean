import BootLogo.Bytes
import BootLogo.Bitmap.PixelFormat

/-!
# The order of packed pixels in a byte

A bitmap stores the first of several pixels in the topmost bits of a byte, a layer reads it from the
lowest ones. `fixByte` turns one order into the other; for formats of a byte per pixel or more there is
nothing to do. Fixing twice gives the byte back.
-/

namespace BootLogo.BitOrder

/-- The two halves of a byte exchanged. -/
def swapNibbles (b : UInt8) : UInt8 := b <<< 4 ||| b >>> 4

/-- The eight bits of a byte in reverse: halves, then pairs, then single bits are exchanged. -/
def reverseBits (b : UInt8) : UInt8 :=
  let nibbles := swapNibbles b
  let pairs := (nibbles &&& 0x33) <<< 2 ||| (nibbles &&& 0xCC) >>> 2
  (pairs &&& 0x55) <<< 1 ||| (pairs &&& 0xAA) >>> 1

/-- A byte of pixels in the layer's order. -/
def fixByte : PixelFormat → UInt8 → UInt8
  | .clut1 => reverseBits
  | .clut4 => swapNibbles
  | _ => id

/-- Pixel bytes in the layer's order. -/
def fix (format : PixelFormat) (pixels : Bytes) : Bytes := pixels.map (fixByte format)

theorem swapNibbles_swapNibbles (b : UInt8) : swapNibbles (swapNibbles b) = b := by
  obtain ⟨⟨⟨n, hn⟩⟩⟩ := b
  revert n
  decide +kernel

theorem reverseBits_reverseBits (b : UInt8) : reverseBits (reverseBits b) = b := by
  obtain ⟨⟨⟨n, hn⟩⟩⟩ := b
  revert n
  decide +kernel

theorem fixByte_fixByte (format : PixelFormat) (b : UInt8) :
    fixByte format (fixByte format b) = b := by
  cases format <;> simp [fixByte, swapNibbles_swapNibbles, reverseBits_reverseBits]

theorem fix_fix (format : PixelFormat) (pixels : Bytes) : fix format (fix format pixels) = pixels := by
  simp [fix, Function.comp_def, fixByte_fixByte]

@[simp] theorem length_fix (format : PixelFormat) (pixels : Bytes) :
    (fix format pixels).length = pixels.length := by
  simp [fix]

end BootLogo.BitOrder
