import BootLogo.Proofs.Bitmap.Undoing

/-!
# The order of packed pixels

A bitmap stores the leftmost of the pixels that share a byte in its topmost bits, a layer takes it from the
lowest ones. A byte of packed pixels is a row of fields, each of which is a palette index:

* `BitOrder.field`: one of the fields of a byte, counted from the lowest bits.
* `PixelFormat.lowestFirst?` and `PixelFormat.topmostFirst?` read the index in a column of a row, the layer's
  way and the bitmap's way. Fixing the bytes turns one into the other (`lowestFirst?_fix`).
* `interpret_keeps_indices`: so the layer gets the index that was stored, whatever the width, the padding and
  the order of the rows, and no other byte is touched.
-/

namespace BootLogo

/-- A field of `bits` bits of a byte. The field at place zero is made of the lowest bits. -/
def BitOrder.field (bits place : Nat) (b : UInt8) : Nat := b.toNat / 2 ^ (bits * place) % 2 ^ bits

theorem BitOrder.field_lt (bits place : Nat) (b : UInt8) : field bits place b < 2 ^ bits :=
  Nat.mod_lt _ (Nat.two_pow_pos bits)

open BitOrder (field field_lt)

namespace PixelFormat

/-- How many packed pixels share a byte. -/
def perByte (format : PixelFormat) : Nat := 8 / format.bitsPerPixel

/-- The palette index in column `x` of a row whose bytes hold their leftmost pixel in the lowest bits, if the
row is that long. -/
def lowestFirst? (format : PixelFormat) (row : Bytes) (x : Nat) : Option Nat :=
  row[x / format.perByte]?.map (field format.bitsPerPixel (x % format.perByte))

/-- The palette index in column `x` of a row whose bytes hold their leftmost pixel in the topmost bits, if
the row is that long. -/
def topmostFirst? (format : PixelFormat) (row : Bytes) (x : Nat) : Option Nat :=
  row[x / format.perByte]?.map
    (field format.bitsPerPixel (format.perByte - 1 - x % format.perByte))

theorem isPacked_iff {format : PixelFormat} : format.IsPacked ↔ format = .clut1 ∨ format = .clut4 := by
  unfold IsPacked
  cases format <;> decide

theorem perByte_pos {format : PixelFormat} (h : format.IsPacked) : 0 < format.perByte := by
  rcases isPacked_iff.1 h with rfl | rfl <;> decide

theorem paletteEntries_eq {format : PixelFormat} (h : format.IsPacked) :
    format.paletteEntries = 2 ^ format.bitsPerPixel := by
  rcases isPacked_iff.1 h with rfl | rfl <;> rfl

end PixelFormat

namespace Bitmap

variable {bytes : Bytes} {info : Info} {format : PixelFormat}

/-! ## One byte and one row -/

theorem field_fixByte (h : format.IsPacked) {place : Nat} (hplace : place < format.perByte) (b : UInt8) :
    field format.bitsPerPixel place (BitOrder.fixByte format b) =
      field format.bitsPerPixel (format.perByte - 1 - place) b := by
  obtain ⟨⟨⟨n, hn⟩⟩⟩ := b
  revert n
  rcases PixelFormat.isPacked_iff.1 h with rfl | rfl
  · revert place
    show ∀ place < 8, _
    decide +kernel
  · revert place
    show ∀ place < 2, _
    decide +kernel

theorem lowestFirst?_fix (h : format.IsPacked) (row : Bytes) (x : Nat) :
    format.lowestFirst? (BitOrder.fix format row) x = format.topmostFirst? row x := by
  have hmirror : field format.bitsPerPixel (x % format.perByte) ∘ BitOrder.fixByte format =
      field format.bitsPerPixel (format.perByte - 1 - x % format.perByte) :=
    funext (field_fixByte h (Nat.mod_lt x (PixelFormat.perByte_pos h)))
  rw [PixelFormat.lowestFirst?, PixelFormat.topmostFirst?, BitOrder.fix, List.getElem?_map,
    Option.map_map, hmirror]

theorem exists_index (h : format.IsPacked) {row : Bytes} {width x : Nat}
    (hrow : row.length = width * format.bitsPerPixel ⌈/⌉ 8) (hx : x < width) :
    ∃ index < format.paletteEntries, format.topmostFirst? row x = some index := by
  have hinside : x / format.perByte < row.length := by
    rw [hrow, Nat.ceilDiv_eq_add_pred_div]
    rcases PixelFormat.isPacked_iff.1 h with rfl | rfl
    · show x / 8 < (width * 1 + 8 - 1) / 8
      omega
    · show x / 2 < (width * 4 + 8 - 1) / 8
      omega
  refine ⟨field format.bitsPerPixel (format.perByte - 1 - x % format.perByte) row[x / format.perByte],
    ?_, ?_⟩
  · rw [PixelFormat.paletteEntries_eq h]
    exact field_lt _ _ _
  · rw [PixelFormat.topmostFirst?, List.getElem?_eq_getElem hinside, Option.map_some]

/-! ## The whole container -/

theorem length_pictureRow (h : inspect bytes = .ok info) {index : Nat} (hindex : index < info.layout.height) :
    (info.pictureRow bytes index).length = info.layout.width * info.format.bitsPerPixel ⌈/⌉ 8 := by
  obtain ⟨-, -, hlays, hstop⟩ := inspect_eq_ok h
  have hfits := storedRow_le_region (storedAt_lt hindex)
  rw [Info.stop] at hstop
  rw [Info.pictureRow, length_slice (by omega), ← hlays.rowBytes_eq, Nat.add_sub_cancel_left]

/-- **The layer reads the palette index that the bitmap stores**, for every pixel of a packed format. Only
bytes of the pixels change, none if a pixel takes a byte or more, and none if the bitmap is refused. -/
theorem interpret_keeps_indices (bytes : Bytes) :
    (∀ error, (interpret bytes).result = .error error → (interpret bytes).bytes = bytes) ∧
    ∀ info image, (interpret bytes).result = .ok (info, image) →
      (image.format = .clut1 ∨ image.format = .clut4 → ∀ index < image.height,
        ∃ row, image.fetchRows[index]? = some row ∧ ∀ x < image.width,
          ∃ entry < image.format.paletteEntries,
            image.format.lowestFirst? row x = some entry ∧
            image.format.topmostFirst? (info.pictureRow bytes index) x = some entry) ∧
      (interpret bytes).bytes.length = bytes.length ∧
      (∀ place, ¬ (info.start ≤ place ∧ place < info.start + image.rowStride * image.height) →
        (interpret bytes).bytes[place]? = bytes[place]?) ∧
      (8 ≤ image.format.bitsPerPixel → (interpret bytes).bytes = bytes) := by
  refine ⟨fun error herror => ?_, fun info image himage => ?_⟩
  · unfold interpret at herror ⊢
    cases hinspect : inspect bytes with
    | error other => rfl
    | ok info =>
      rw [hinspect] at herror
      cases herror
  obtain ⟨hinfo, rfl⟩ := interpret_eq_ok.1 himage
  obtain ⟨-, -, -, hstop⟩ := inspect_eq_ok hinfo
  simp only [format_image, width_image, height_image, rowStride_image, bytes_interpret hinfo]
  refine ⟨fun hformat index hindex => ?_, length_fixed hinfo, fun place houtside => ?_, fun hwide => ?_⟩
  · have hpacked : info.format.IsPacked := PixelFormat.isPacked_iff.2 hformat
    refine ⟨BitOrder.fix info.format (info.pictureRow bytes index), ?_, fun x hx => ?_⟩
    · rw [fetchRows_eq hinfo, List.getElem?_map, List.getElem?_range hindex, Option.map_some,
        storedRow_eq hinfo hindex]
    · obtain ⟨entry, hentry, hstored⟩ := exists_index hpacked (length_pictureRow hinfo hindex) hx
      exact ⟨entry, hentry, (lowestFirst?_fix hpacked _ x).trans hstored, hstored⟩
  · exact (getElem?_fixed hstop place).trans (if_neg houtside)
  · exact fixed_of_not_packed hstop (Nat.not_lt.2 hwide)

/-- The bytes of `checkeredUp` as two rows of one pixel of 24 bits. -/
def coloured : Bytes := (checkeredUp.set 18 1).set 28 24

theorem interpret_keeps_indices_checkered :
    let info := checkeredInfo checkeredDown 4 (-6)
    let image := info.image (info.fixed checkeredDown)
    (interpret checkeredDown).result = .ok (info, image) ∧
    (∃ row, image.fetchRows[1]? = some row ∧ image.format.lowestFirst? row 2 = some 6 ∧
      image.format.topmostFirst? (info.pictureRow checkeredDown 1) 2 = some 6) ∧
    (interpret checkeredDown).bytes[53]? = checkeredDown[53]? ∧
    (interpret coloured).bytes = coloured ∧
    (interpret (coloured.drop 1)).bytes = coloured.drop 1 := by
  intro info image
  have hdown : (interpret checkeredDown).result = .ok (info, image) := interpret_eq_ok.2 ⟨rfl, rfl⟩
  obtain ⟨-, hshown⟩ := interpret_keeps_indices checkeredDown
  obtain ⟨hindices, -, houtside, -⟩ := hshown info image hdown
  obtain ⟨row, hrow, hpixels⟩ := hindices (.inr rfl) 1 (by decide)
  obtain ⟨entry, -, hread, hstored⟩ := hpixels 2 (by decide)
  have hsix : image.format.topmostFirst? (info.pictureRow checkeredDown 1) 2 = some 6 := by decide
  rw [hstored] at hsix
  obtain ⟨-, hcoloured⟩ := interpret_keeps_indices coloured
  obtain ⟨-, -, -, hwide⟩ := hcoloured _ _ (interpret_eq_ok.2 ⟨rfl, rfl⟩)
  obtain ⟨hrefused, -⟩ := interpret_keeps_indices (coloured.drop 1)
  exact ⟨hdown, ⟨row, hrow, hread.trans hsix, hstored.trans hsix⟩, houtside 53 (by decide),
    hwide (by decide), hrefused .badSignature rfl⟩

end Bitmap

end BootLogo
