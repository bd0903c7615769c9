import BootLogo.Proofs.Bitmap.Undoing

/-!
# Where the palette lies

The palette starts behind the header, as long as the header says that it is, and stops where the pixels start
if not before. Both numbers are taken from the file, so the one may lie behind the other, or far behind the
end.

* `palette_image`: the palette is a part of the file that lies in front of the pixels, as it was before the
  pixels were turned round.
* `paletteWithin_eq`: sums that stop at the greatest address find the same palette, however small it is.
-/

namespace BootLogo.Bitmap

variable {bytes : Bytes} {info : Info} {first last : Nat}

theorem slice_eq_nil (h : last ≤ first) : slice bytes first last = [] := by
  rw [slice, Nat.sub_eq_zero_of_le h, List.take_zero]

/-- The first byte behind the header. -/
def paletteStart (bytes : Bytes) : Nat := 14 + bytes.word 14

/-- Where the palette stops: at the pixels, or behind as many entries as a pixel can index. -/
def paletteStop (bytes : Bytes) (format : PixelFormat) : Nat :=
  min (bytes.word 10) (paletteStart bytes + 4 * format.paletteEntries)

theorem header_of_inspect (h : inspect bytes = .ok info) :
    info.start = bytes.word 10 ∧ info.header.headerSize = bytes.word 14 := by
  obtain ⟨-, -, -, hheader⟩ := parse_eq_ok_iff.1 (inspect_eq_ok h).1
  rw [Info.start, hheader]
  exact ⟨rfl, rfl⟩

theorem palette_image (h : inspect bytes = .ok info) :
    (info.image (info.fixed bytes)).palette =
      slice bytes (paletteStart bytes) (paletteStop bytes info.format) := by
  obtain ⟨hstart, hsize⟩ := header_of_inspect h
  show info.palette (info.fixed bytes) = _
  rw [Info.palette, slice_fixed (inspect_eq_ok h).2.2.2 (Nat.min_le_left _ _), hstart, hsize,
    Nat.add_comm (bytes.word 14), Nat.mul_comm]
  rfl

theorem length_palette_image (h : inspect bytes = .ok info) :
    (info.image (info.fixed bytes)).palette.length =
      paletteStop bytes info.format - paletteStart bytes := by
  obtain ⟨-, -, -, hstop⟩ := inspect_eq_ok h
  have hpixels : info.start ≤ info.stop := Nat.le_add_right _ _
  have hlast : paletteStop bytes info.format ≤ info.start :=
    (header_of_inspect h).1 ▸ Nat.min_le_left _ _
  rw [palette_image h, length_slice (hlast.trans (hpixels.trans hstop))]

theorem palette_image_of_not_indexed (h : inspect bytes = .ok info)
    (hcolour : info.format.isIndexed = false) : (info.image (info.fixed bytes)).palette = [] := by
  have hentries : info.format.paletteEntries = 0 := by
    rw [PixelFormat.isIndexed, decide_eq_false_iff_not] at hcolour
    exact Decidable.not_not.1 hcolour
  rw [palette_image h, slice_eq_nil]
  rw [paletteStop, hentries]
  exact Nat.min_le_right _ _

/-- The palette, found with sums that stop at `most`. -/
def Info.paletteWithin (info : Info) (most : Nat) (bytes : Bytes) : Bytes :=
  let first := min (info.header.headerSize + Header.fileHeaderSize) most
  let last := min info.start (min (first + info.format.paletteEntries * 4) most)
  if first ≤ last ∧ last ≤ bytes.length then slice bytes first last else []

theorem paletteWithin_eq {most : Nat} (hpixels : info.start ≤ bytes.length) (hmost : bytes.length ≤ most) :
    info.paletteWithin most bytes = info.palette bytes := by
  rw [Info.paletteWithin, Info.palette]
  generalize info.header.headerSize + Header.fileHeaderSize = first
  generalize info.format.paletteEntries * 4 = size
  rcases Nat.le_total first most with hfirst | hfirst
  · have hlast : min info.start (min (first + size) most) = min info.start (first + size) := by omega
    rw [Nat.min_eq_left hfirst, hlast]
    split
    · rfl
    · exact (slice_eq_nil (by omega)).symm
  · -- the sum stops, and that is behind the end of the file
    rw [Nat.min_eq_right hfirst, slice_eq_nil (by omega), slice_eq_nil (by omega), ite_self]

end BootLogo.Bitmap
