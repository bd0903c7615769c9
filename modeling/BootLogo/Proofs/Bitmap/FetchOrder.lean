import BootLogo.Proofs.Bitmap.Checked
import Mathlib.Data.List.TakeWhile
import Mathlib.GroupTheory.GroupAction.Ring
import Mathlib.Tactic.Ring

/-!
# The rows that a layer fetches

A layer starts at the origin and after each row adds the row and the stride to its address. On a bitmap
that can be interpreted this leads through all rows, from the bottom of the picture to its top:

* `cursor_eq`: at each row the address stands where that row of the picture is stored (`storedAt`), also
  where it walks backwards.
* `fetchRows_eq`: so no row is missed. `storedRow_eq`: each is a row of the container in the layer's bit
  order.
* `fetchRows_interpret`: the rows counted and measured; they do not depend on the order in which they
  are stored, nor on the padding.
-/

namespace BootLogo.Bitmap

variable {bytes : Bytes} {info : Info} {image : Image} {index : Nat}

/-- Which of the stored rows is the row `index` of the picture, counted from the bottom. -/
def Info.storedAt (info : Info) (index : Nat) : Nat :=
  if info.header.height < 0 then info.layout.height - 1 - index else index

/-- The row `index` of the picture as the container stores it, counted from the bottom. -/
def Info.pictureRow (info : Info) (bytes : Bytes) (index : Nat) : Bytes :=
  let place := info.start + info.storedAt index * info.layout.rowStride
  slice bytes place (place + info.layout.rowBytes)

/-- A stored row of a picture, without its padding. -/
def Image.storedRow (image : Image) (index : Nat) : Bytes :=
  slice image.pixels (index * image.rowStride) (index * image.rowStride + image.rowBytes)

theorem storedAt_lt (hindex : index < info.layout.height) :
    info.storedAt index < info.layout.height := by
  unfold Info.storedAt
  split <;> omega

theorem storedRow_le_region {layout : Layout} (hindex : index < layout.height) :
    index * layout.rowStride + layout.rowBytes ≤ layout.region := by
  have hnext : (index + 1) * layout.rowStride ≤ layout.height * layout.rowStride :=
    Nat.mul_le_mul_right _ hindex
  rw [Nat.add_mul, Nat.one_mul] at hnext
  rw [Layout.region, Nat.mul_comm layout.rowStride]
  simp only [Layout.rowStride] at hnext ⊢
  omega

theorem cursor_eq (h : inspect bytes = .ok info) (hindex : index < info.layout.height) :
    (info.image (info.fixed bytes)).cursor index =
      (info.storedAt index * info.layout.rowStride : Nat) := by
  obtain ⟨-, -, hlays, -⟩ := inspect_eq_ok h
  show (info.layout.origin : Int) + index * (info.layout.rowBytes + info.layout.stride) = _
  rw [Info.storedAt]
  by_cases hneg : info.header.height < 0
  · obtain ⟨horigin, hback⟩ := hlays.topDown hneg
    obtain ⟨left, hleft⟩ : ∃ left, info.layout.height = index + 1 + left :=
      ⟨info.layout.height - (index + 1), by omega⟩
    have hlast : info.layout.height - 1 = index + left := by omega
    have hrest : index + left - index = left := by omega
    -- from the last row back over a row and its padding, `index` times
    have hstep : (info.layout.rowBytes : Int) + info.layout.stride = -(info.layout.rowStride : Int) := by
      rw [hback]
      omega
    rw [if_pos hneg, horigin, hstep, hlast, hrest]
    push_cast
    ring
  · have hpos : 0 < info.header.height := by
      have := hlays.height_ne
      omega
    obtain ⟨horigin, hpadding⟩ := hlays.bottomUp hpos
    rw [if_neg hneg, horigin, hpadding, Layout.rowStride]
    push_cast
    ring

theorem fetchRows_eq (h : inspect bytes = .ok info) :
    (info.image (info.fixed bytes)).fetchRows = (List.range info.layout.height).map fun index =>
      (info.image (info.fixed bytes)).storedRow (info.storedAt index) := by
  obtain ⟨-, -, -, hstop⟩ := inspect_eq_ok h
  have hsize := length_pixels_image hstop
  -- the walk never leaves the pixels, so it is not cut short
  have hall : ∀ place ∈ (List.range info.layout.height).map (info.image (info.fixed bytes)).cursor,
      Image.inside (info.image (info.fixed bytes)).pixels.toArray.size info.layout.rowBytes place =
        true := by
    intro place hplace
    obtain ⟨index, hindex, rfl⟩ := List.mem_map.1 hplace
    rw [List.mem_range] at hindex
    have hfits := storedRow_le_region (storedAt_lt hindex)
    rw [cursor_eq h hindex, List.size_toArray, Image.inside, hsize]
    simp only [decide_eq_true_eq]
    omega
  simp only [Image.fetchRows, height_image, rowBytes_image]
  rw [List.takeWhile_eq_self_iff.2 hall, List.map_map]
  refine List.map_congr_left fun index hindex => ?_
  rw [List.mem_range] at hindex
  simp only [Function.comp_apply]
  rw [cursor_eq h hindex, Int.toNat_natCast, Array.toList_extract, List.extract_eq_take_drop]
  rfl

theorem storedRow_eq (h : inspect bytes = .ok info) (hindex : index < info.layout.height) :
    (info.image (info.fixed bytes)).storedRow (info.storedAt index) =
      BitOrder.fix info.format (info.pictureRow bytes index) := by
  obtain ⟨-, -, -, hstop⟩ := inspect_eq_ok h
  have hfits := storedRow_le_region (storedAt_lt hindex)
  simp only [Image.storedRow, Info.pictureRow, rowStride_image, rowBytes_image]
  rw [pixels_image hstop, ← fix_slice, slice_slice, Nat.add_assoc]
  rw [Info.stop]
  omega

/-- **The layer fetches the rows of the picture from the bottom up**, whatever order they are stored in
and whatever lies between them. -/
theorem fetchRows_interpret (h : (interpret bytes).result = .ok (info, image)) :
    image.fetchRows.length = image.height ∧
    (∀ index < image.height,
      image.fetchRows[index]? = some (image.storedRow (info.storedAt index)) ∧
      (image.storedRow (info.storedAt index)).length =
        image.width * image.format.bitsPerPixel ⌈/⌉ 8 ∧
      info.storedAt index * image.rowStride + image.rowBytes ≤ image.pixels.length) ∧
    (0 < info.header.height → ∀ index, info.storedAt index = index) ∧
    (info.header.height < 0 → ∀ index, info.storedAt index = image.height - 1 - index) ∧
    ∀ (other : Bytes) (otherInfo : Info) (otherImage : Image),
      (interpret other).result = .ok (otherInfo, otherImage) →
      otherImage.format = image.format → otherImage.height = image.height →
      (∀ index < image.height, otherInfo.pictureRow other index = info.pictureRow bytes index) →
      otherImage.fetchRows = image.fetchRows := by
  obtain ⟨hinfo, rfl⟩ := interpret_eq_ok.1 h
  obtain ⟨-, -, hlays, hstop⟩ := inspect_eq_ok hinfo
  have hrows := fetchRows_eq hinfo
  have hsize := length_pixels_image hstop
  simp only [height_image, width_image, format_image, rowStride_image, rowBytes_image]
  refine ⟨by rw [hrows, List.length_map, List.length_range],
    fun index hindex => ⟨?_, ?_, ?_⟩, fun hpos index => if_neg (by omega), fun hneg index => ?_, ?_⟩
  · rw [hrows, List.getElem?_map, List.getElem?_range hindex, Option.map_some]
  · have hfits := storedRow_le_region (storedAt_lt hindex)
    rw [Image.storedRow, length_slice (hsize ▸ hfits), ← hlays.rowBytes_eq, rowBytes_image]
    omega
  · rw [hsize]
    exact storedRow_le_region (storedAt_lt hindex)
  · rw [Info.storedAt, if_pos hneg]
  · intro other otherInfo otherImage hother hformat hheight hpicture
    obtain ⟨hotherInfo, rfl⟩ := interpret_eq_ok.1 hother
    simp only [format_image, height_image] at hformat hheight
    rw [hrows, fetchRows_eq hotherInfo, hheight]
    refine List.map_congr_left fun index hindex => ?_
    rw [List.mem_range] at hindex
    rw [storedRow_eq hinfo hindex, storedRow_eq hotherInfo (hheight ▸ hindex), hpicture index hindex,
      hformat]

/-- Two rows of three pixels of four bits, the bottom one first if the height is 2. -/
def checkered (height : Nat) (rows : Bytes) : Bytes :=
  [0x42, 0x4D] ++ Bytes.ofWord 62 ++ Bytes.ofWord 0 ++ Bytes.ofWord 54 ++ Bytes.ofWord 40 ++
    Bytes.ofWord 3 ++ Bytes.ofWord height ++ [1, 0, 4, 0] ++ List.replicate 24 0 ++ rows

def checkeredUp : Bytes := checkered 2 [0x12, 0x30, 0xAA, 0xBB, 0x45, 0x60, 0xCC, 0xDD]

def checkeredDown : Bytes := checkered (wordLimit - 2) [0x45, 0x60, 0, 0, 0x12, 0x30, 0, 0]

def checkeredInfo (bytes : Bytes) (origin : Nat) (stride : Int) : Info :=
  ⟨.fields bytes, .clut4, ⟨3, 2, 2, 2, origin, stride⟩⟩

theorem fetchRows_interpret_checkered :
    let up := checkeredInfo checkeredUp 0 2
    let down := checkeredInfo checkeredDown 4 (-6)
    (interpret checkeredUp).result = .ok (up, up.image (up.fixed checkeredUp)) ∧
    (interpret checkeredDown).result = .ok (down, down.image (down.fixed checkeredDown)) ∧
    (up.image (up.fixed checkeredUp)).fetchRows = [[0x21, 0x03], [0x54, 0x06]] ∧
    (down.image (down.fixed checkeredDown)).fetchRows =
      (up.image (up.fixed checkeredUp)).fetchRows := by
  intro up down
  have hup : (interpret checkeredUp).result = .ok (up, up.image (up.fixed checkeredUp)) :=
    interpret_eq_ok.2 ⟨rfl, rfl⟩
  have hdown : (interpret checkeredDown).result = .ok (down, down.image (down.fixed checkeredDown)) :=
    interpret_eq_ok.2 ⟨rfl, rfl⟩
  obtain ⟨-, -, -, -, hsame⟩ := fetchRows_interpret hup
  refine ⟨hup, hdown, by decide +kernel, hsame checkeredDown down _ hdown rfl rfl fun index hindex => ?_⟩
  rcases index with _ | _ | index
  · rfl
  · rfl
  · exact absurd hindex (by show ¬ index + 2 < 2; omega)

end BootLogo.Bitmap
