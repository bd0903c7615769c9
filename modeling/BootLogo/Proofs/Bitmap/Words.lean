import BootLogo.Proofs.Bitmap.Checked
import BootLogo.Proofs.Words

/-!
# The check in machine words

`inspect` counts in numbers without a limit. `inspectInWords` is the same check in machine words, each step
of which can overflow: sizes and offsets have 64 bits, a way from row to row has 64 with a sign, and the
stride of a layer has 32 with a sign. `inspectInWords_eq` says that the two agree on every container. The
sides of a picture are below 2^16, so its rows stay below 2^19 bytes and its region below 2^35.
-/

namespace BootLogo.Bitmap

/-- Why the check in machine words fails. -/
inductive Fault where
  | refused (error : Error)
  /-- A number does not fit its word. -/
  | overflow
  deriving DecidableEq

instance : Word.Overflows (Except Fault) where
  overflow _ _ := .error .overflow

/-- The layout of a picture, computed in machine words. -/
def Layout.ofSizeInWords (format : PixelFormat) (width height : Int) : Except Fault Layout :=
  if width ≤ 0 then .error (.refused (.geometry (.nonPositiveWidth width)))
  else if height = 0 then .error (.refused (.geometry .zeroHeight))
  else if sizeLimit < width.natAbs ∨ sizeLimit < height.natAbs then
    .error (.refused (.geometry (.tooLarge width height)))
  else do
    let bits ← Word.unsigned (2 ^ 64) (width.natAbs * format.bitsPerPixel : Nat)
    let rowBytes := (bits + 7) / 8
    let rowPadding := (4 - rowBytes % 4) % 4
    let rowStride ← Word.unsigned (2 ^ 64) (rowBytes + rowPadding : Nat)
    let origin ←
      if height < 0 then Word.unsigned (2 ^ 64) (rowStride * (height.natAbs - 1) : Nat) else pure 0
    let step ←
      if height < 0 then do
        let twoRows ← Word.unsigned (2 ^ 64) (2 * rowBytes : Nat)
        let back ← Word.signed (2 ^ 63) (← Word.unsigned (2 ^ 64) (twoRows + rowPadding : Nat))
        pure (-back)
      else pure (rowPadding : Int)
    let stride ← Word.signed (2 ^ 31) step
    return ⟨width.natAbs, height.natAbs, rowBytes, rowPadding, origin, stride⟩

/-- The check of a bitmap, computed in machine words. -/
def inspectInWords (bytes : Bytes) : Except Fault Info := do
  let header ← (Header.parse bytes).mapError .refused
  let format ← header.pixelFormat.mapError .refused
  let layout ← Layout.ofSizeInWords format header.width header.height
  let region ← Word.unsigned (2 ^ 64) (layout.rowStride * layout.height : Nat)
  let stop ← Word.unsigned (2 ^ 64) (header.pixelOffset + region : Nat)
  if bytes.length < stop then
    throw (.refused (.geometry (.pixelsOutOfBounds stop bytes.length)))
  return ⟨header, format, layout⟩

/-! ## No number leaves its word -/

variable {format : PixelFormat} {width height : Int}

theorem bits_lt (format : PixelFormat) {columns : Nat} (h : columns ≤ Layout.sizeLimit) :
    columns * format.bitsPerPixel < 2 ^ 21 := by
  have hbits : format.bitsPerPixel ≤ 32 := by cases format <;> decide
  calc columns * format.bitsPerPixel ≤ Layout.sizeLimit * 32 := Nat.mul_le_mul h hbits
    _ < 2 ^ 21 := by decide

theorem Layout.ofSizeInWords_eq (format : PixelFormat) (width height : Int) :
    ofSizeInWords format width height =
      (ofSize format width height).mapError fun error => .refused (.geometry error) := by
  unfold ofSizeInWords ofSize
  by_cases hwidth : width ≤ 0
  · rw [if_pos hwidth, if_pos hwidth]
    rfl
  by_cases hheight : height = 0
  · rw [if_neg hwidth, if_neg hwidth, if_pos hheight, if_pos hheight]
    rfl
  by_cases hlarge : sizeLimit < width.natAbs ∨ sizeLimit < height.natAbs
  · rw [if_neg hwidth, if_neg hwidth, if_neg hheight, if_neg hheight, if_pos hlarge, if_pos hlarge]
    rfl
  rw [if_neg hwidth, if_neg hwidth, if_neg hheight, if_neg hheight, if_neg hlarge, if_neg hlarge]
  obtain ⟨hcolumns, hrows⟩ := not_or.1 hlarge
  have hbits := bits_lt format (Nat.le_of_not_lt hcolumns)
  rw [sizeLimit] at hrows
  generalize width.natAbs * format.bitsPerPixel = bits at hbits ⊢
  rw [Word.bind_eq (Word.unsigned_eq (by omega))]
  dsimp only
  have hrowBytes : (bits + 7) / 8 ≤ 2 ^ 18 := by omega
  generalize (bits + 7) / 8 = rowBytes at hrowBytes ⊢
  have hrowPadding : (4 - rowBytes % 4) % 4 < 4 := Nat.mod_lt _ (by decide)
  generalize (4 - rowBytes % 4) % 4 = rowPadding at hrowPadding ⊢
  have horigin : (rowBytes + rowPadding) * (height.natAbs - 1) ≤ 2 ^ 19 * 2 ^ 16 :=
    Nat.mul_le_mul (by omega) (by omega)
  rw [Word.bind_eq (Word.unsigned_eq (by omega))]
  by_cases hneg : height < 0
  · simp only [if_pos hneg, pure_bind]
    rw [Word.bind_eq (Word.unsigned_eq (by omega)), Word.bind_eq (Word.unsigned_eq (by omega)),
      Word.bind_eq (Word.unsigned_eq (by omega)), Word.bind_eq (Word.signed_eq (by omega)),
      Word.bind_eq (Word.signed_eq (by omega))]
    rfl
  · simp only [if_neg hneg, pure_bind]
    rw [Word.bind_eq (Word.signed_eq (by omega))]
    rfl

theorem region_le {layout : Layout} (h : Layout.ofSize format width height = .ok layout) :
    layout.region ≤ 2 ^ 16 * 2 ^ 19 := by
  obtain ⟨⟨-, -, hcolumns, hrows⟩, -⟩ := Layout.ofSize_eq_ok h
  have hbits := bits_lt format hcolumns
  rw [Layout.sizeLimit] at hrows
  rw [Layout.region_of_ofSize h]
  refine Nat.mul_le_mul (by omega) ?_
  rw [Nat.ceilDiv_eq_add_pred_div, Nat.ceilDiv_eq_add_pred_div]
  omega

/-- **The check in machine words is the check**: no number of it overflows, whatever the container says. -/
theorem inspectInWords_eq (bytes : Bytes) : inspectInWords bytes = (inspect bytes).mapError .refused := by
  have ok_bind {ε α β : Type} (value : α) (next : α → Except ε β) : (.ok value >>= next) = next value := rfl
  unfold inspectInWords inspect
  cases hparse : Header.parse bytes with
  | error error => rfl
  | ok header =>
    obtain ⟨-, -, -, hheader⟩ := parse_eq_ok_iff.1 hparse
    have hoffset : header.pixelOffset < wordLimit := hheader ▸ Bytes.word_lt bytes 10
    rw [wordLimit] at hoffset
    simp only [Except.mapError, ok_bind, Layout.ofSizeInWords_eq]
    cases hformat : header.pixelFormat with
    | error error => rfl
    | ok format =>
      simp only [ok_bind]
      cases hlayout : Layout.ofSize format header.width header.height with
      | error error => rfl
      | ok layout =>
        have hregion : layout.rowStride * layout.height ≤ 2 ^ 16 * 2 ^ 19 := region_le hlayout
        simp only [ok_bind]
        rw [Word.bind_eq (Word.unsigned_eq (by omega)), Word.bind_eq (Word.unsigned_eq (by omega))]
        by_cases hroom : bytes.length < header.pixelOffset + layout.rowStride * layout.height
        · rw [if_pos hroom, if_pos (show bytes.length < Info.stop ⟨header, format, layout⟩ from hroom)]
          rfl
        · rw [if_neg hroom, if_neg (show ¬ bytes.length < Info.stop ⟨header, format, layout⟩ from hroom)]
          rfl

end BootLogo.Bitmap
