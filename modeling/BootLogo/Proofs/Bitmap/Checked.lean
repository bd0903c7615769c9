import BootLogo.Bitmap.Image
import Mathlib.Algebra.Order.Floor.Div

/-!
# What a checked bitmap promises

* `Layout.Lays`: how the rows of a picture of some size lie, in both row orders. A layout that is
  accepted lays them so (`lays_of_ofSize`).
* `inspect_eq_ok_iff`: which bitmaps pass the check, and what is found in them. Those have such a layout, and
  their pixels lie in the buffer (`inspect_eq_ok`).
* `interpret_eq_ok`: a bitmap can be interpreted exactly if it passes the check, and the pixels of the
  picture are those of the container, each byte in the layer's bit order (`pixels_image`).
-/

namespace BootLogo.Bitmap

variable {bytes : Bytes} {start stop i j : Nat} {format : PixelFormat} {info : Info} {image : Image}

/-! ## Slices -/

theorem length_slice (h : stop ≤ bytes.length) : (slice bytes start stop).length = stop - start := by
  simp only [slice, List.length_take, List.length_drop]
  omega

theorem slice_slice (h : start + j ≤ stop) :
    slice (slice bytes start stop) i j = slice bytes (start + i) (start + j) := by
  simp only [slice, List.drop_take, List.drop_drop, List.take_take]
  congr 1
  omega

theorem fix_slice : BitOrder.fix format (slice bytes start stop) =
    slice (BitOrder.fix format bytes) start stop := by
  simp only [BitOrder.fix, slice, List.map_take, List.map_drop]

/-! ## Layouts -/

/-- The rows of a picture lie one after the other, the header stating these numbers for its size. A
positive height says that the bottom row comes first, a negative one that it comes last. -/
structure Layout.Lays (layout : Layout) (format : PixelFormat) (width height : Int) : Prop where
  width_eq : (layout.width : Int) = width
  width_pos : 0 < layout.width
  height_eq : layout.height = height.natAbs
  height_ne : height ≠ 0
  rowBytes_eq : layout.rowBytes = layout.width * format.bitsPerPixel ⌈/⌉ 8
  rowPadding_lt : layout.rowPadding < 4
  bottomUp : 0 < height → layout.origin = 0 ∧ layout.stride = layout.rowPadding
  topDown : height < 0 → layout.origin = layout.rowStride * (layout.height - 1) ∧
    layout.stride = -(layout.rowBytes + layout.rowStride : Nat)

theorem Layout.ofSize_eq_ok {width height : Int} {layout : Layout}
    (h : Layout.ofSize format width height = .ok layout) :
    (0 < width ∧ height ≠ 0 ∧ width.natAbs ≤ sizeLimit ∧ height.natAbs ≤ sizeLimit) ∧
      layout.width = width.natAbs ∧ layout.height = height.natAbs ∧
      layout.rowBytes = width.natAbs * format.bitsPerPixel ⌈/⌉ 8 ∧
      layout.rowPadding = (4 - layout.rowBytes % 4) % 4 ∧
      layout.origin = (if height < 0 then layout.rowStride * (layout.height - 1) else 0) ∧
      layout.stride =
        if height < 0 then -((2 * layout.rowBytes + layout.rowPadding : Nat) : Int)
        else layout.rowPadding := by
  unfold Layout.ofSize at h
  split at h
  · cases h
  rename_i hwidth
  split at h
  · cases h
  rename_i hheight
  split at h
  · cases h
  rename_i hlarge
  cases h
  obtain ⟨hcolumns, hrows⟩ := not_or.1 hlarge
  refine ⟨⟨Int.not_le.1 hwidth, hheight, Nat.not_lt.1 hcolumns, Nat.not_lt.1 hrows⟩, rfl, rfl, ?_, rfl,
    rfl, rfl⟩
  rw [Nat.ceilDiv_eq_add_pred_div]
  rfl

theorem Layout.lays_of_ofSize {width height : Int} {layout : Layout}
    (h : Layout.ofSize format width height = .ok layout) : layout.Lays format width height := by
  obtain ⟨⟨hpos, hne, -, -⟩, hwidth, hheight, hrowBytes, hrowPadding, horigin, hstride⟩ :=
    Layout.ofSize_eq_ok h
  refine ⟨by omega, by omega, hheight, hne, by rw [hrowBytes, hwidth], ?_, fun hup => ?_, fun hdown => ?_⟩
  · rw [hrowPadding]
    exact Nat.mod_lt _ (by decide)
  · have hnot : ¬ height < 0 := by omega
    exact ⟨horigin.trans (if_neg hnot), hstride.trans (if_neg hnot)⟩
  · refine ⟨horigin.trans (if_pos hdown), (hstride.trans (if_pos hdown)).trans ?_⟩
    rw [Layout.rowStride]
    omega

theorem Layout.region_of_ofSize {width height : Int} {layout : Layout}
    (h : Layout.ofSize format width height = .ok layout) :
    layout.region = height.natAbs * (4 * (width.natAbs * format.bitsPerPixel ⌈/⌉ 8 ⌈/⌉ 4)) := by
  obtain ⟨-, -, hheight, hrowBytes, hrowPadding, -, -⟩ := Layout.ofSize_eq_ok h
  have hrowStride : layout.rowStride = 4 * (layout.rowBytes ⌈/⌉ 4) := by
    rw [Layout.rowStride, hrowPadding, Nat.ceilDiv_eq_add_pred_div]
    omega
  rw [Layout.region, hrowStride, hrowBytes, hheight, Nat.mul_comm]

theorem Layout.Lays.rowBytes_bounds {layout : Layout} {width height : Int}
    (h : layout.Lays format width height) :
    layout.width ≤ 8 * layout.rowBytes ∧ layout.rowBytes ≤ 4 * layout.width := by
  rw [h.rowBytes_eq, Nat.ceilDiv_eq_add_pred_div]
  cases format <;> simp only [PixelFormat.bitsPerPixel] <;> omega

theorem Layout.Lays.size_unique {layout : Layout} {width height otherWidth otherHeight : Int}
    (h : layout.Lays format width height) (hother : layout.Lays format otherWidth otherHeight) :
    otherWidth = width ∧ otherHeight = height := by
  obtain ⟨hrow, -⟩ := h.rowBytes_bounds
  have hwidth := h.width_pos
  have hsize : height.natAbs = otherHeight.natAbs := h.height_eq.symm.trans hother.height_eq
  refine ⟨hother.width_eq.symm.trans h.width_eq, ?_⟩
  -- the stride goes back exactly if the height is negative
  rcases Int.lt_or_gt_of_ne h.height_ne with hneg | hpos
  · have hback := (h.topDown hneg).2
    have hotherNeg : otherHeight < 0 := by
      by_contra hnot
      have hotherNe := hother.height_ne
      have hforth := (hother.bottomUp (by omega)).2
      omega
    omega
  · have hforth := (h.bottomUp hpos).2
    have hotherPos : 0 < otherHeight := by
      by_contra hnot
      have hotherNe := hother.height_ne
      have hback := (hother.topDown (by omega)).2
      omega
    omega

/-! ## Containers -/

theorem parse_eq_ok_iff {header : Header} : Header.parse bytes = .ok header ↔
    isSigned bytes = true ∧ Header.plainSize ≤ bytes.length ∧
      (bytes.word 30 = masked → Header.maskedSize ≤ bytes.length) ∧ header = .fields bytes := by
  unfold Header.parse
  constructor
  · intro h
    split at h
    · cases h
    rename_i hsigned
    split at h
    · cases h
    rename_i hplain
    split at h
    · cases h
    rename_i hmasked
    cases h
    rw [Bool.not_eq_true, Bool.not_eq_false'] at hsigned
    refine ⟨hsigned, Nat.le_of_not_lt hplain, fun hword => ?_, rfl⟩
    exact Nat.le_of_not_lt fun hshort => hmasked ⟨hword, hshort⟩
  · rintro ⟨hsigned, hplain, hmasked, rfl⟩
    rw [if_neg (by simp [hsigned]), if_neg (Nat.not_lt.2 hplain),
      if_neg fun ⟨hword, hshort⟩ => absurd (hmasked hword) (Nat.not_le.2 hshort)]

theorem pixelFormat_eq_ok_iff {header : Header} :
    header.pixelFormat = .ok format ↔ header.pixelFormat? = some format := by
  unfold Header.pixelFormat
  split
  · rename_i found hfound
    rw [hfound, Except.ok.injEq, Option.some.injEq]
  · rename_i hnone
    rw [hnone]
    exact ⟨nofun, nofun⟩

theorem inspect_eq_ok_iff : inspect bytes = .ok info ↔
    Header.parse bytes = .ok info.header ∧ info.header.pixelFormat = .ok info.format ∧
      Layout.ofSize info.format info.header.width info.header.height = .ok info.layout ∧
      info.stop ≤ bytes.length := by
  unfold inspect
  simp only [bind, Except.bind]
  constructor
  · intro h
    split at h
    · cases h
    rename_i header hheader
    split at h
    · cases h
    rename_i found hformat
    cases hlayout : Layout.ofSize found header.width header.height with
    | error error =>
      rw [hlayout] at h
      cases h
    | ok layout =>
      rw [hlayout] at h
      simp only [Except.mapError] at h
      split at h
      · cases h
      rename_i hstop
      cases h
      exact ⟨hheader, hformat, hlayout, Nat.le_of_not_lt hstop⟩
  · rintro ⟨hheader, hformat, hlayout, hstop⟩
    simp only [hheader, hformat, hlayout, Except.mapError]
    rw [if_neg (Nat.not_lt.2 hstop)]
    rfl

theorem inspect_eq_ok (h : inspect bytes = .ok info) :
    Header.parse bytes = .ok info.header ∧ info.header.pixelFormat = .ok info.format ∧
      info.layout.Lays info.format info.header.width info.header.height ∧
      info.stop ≤ bytes.length := by
  obtain ⟨hheader, hformat, hlayout, hstop⟩ := inspect_eq_ok_iff.1 h
  exact ⟨hheader, hformat, Layout.lays_of_ofSize hlayout, hstop⟩

theorem length_fixed (h : inspect bytes = .ok info) :
    (info.fixed bytes).length = bytes.length := by
  obtain ⟨-, -, -, hstop⟩ := inspect_eq_ok h
  have hle : info.start ≤ info.stop := Nat.le_add_right _ _
  rw [Info.fixed, List.length_append, List.length_append, BitOrder.length_fix, length_slice hstop,
    List.length_take, List.length_drop]
  omega

theorem interpret_eq_ok : (interpret bytes).result = .ok (info, image) ↔
    inspect bytes = .ok info ∧ image = info.image (info.fixed bytes) := by
  unfold interpret
  cases inspect bytes with
  | error error => simp
  | ok found =>
    simp only [Except.ok.injEq, Prod.mk.injEq]
    constructor
    · rintro ⟨rfl, rfl⟩
      exact ⟨rfl, rfl⟩
    · rintro ⟨rfl, rfl⟩
      exact ⟨rfl, rfl⟩

@[simp] theorem format_image : (info.image bytes).format = info.format := rfl

@[simp] theorem width_image : (info.image bytes).width = info.layout.width := rfl

@[simp] theorem height_image : (info.image bytes).height = info.layout.height := rfl

@[simp] theorem rowBytes_image : (info.image bytes).rowBytes = info.layout.rowBytes := rfl

@[simp] theorem rowStride_image : (info.image bytes).rowStride = info.layout.rowStride := rfl

theorem pixels_image (h : info.stop ≤ bytes.length) : (info.image (info.fixed bytes)).pixels =
    BitOrder.fix info.format (slice bytes info.start info.stop) := by
  have hle : info.start ≤ info.stop := Nat.le_add_right _ _
  have hfront : (bytes.take info.start).length = info.start := by
    rw [List.length_take]
    omega
  have hregion : (BitOrder.fix info.format (slice bytes info.start info.stop)).length =
      info.stop - info.start := by
    rw [BitOrder.length_fix, length_slice h]
  show slice (info.fixed bytes) info.start info.stop = _
  rw [Info.fixed, slice, List.append_assoc, List.drop_left' hfront, List.take_left' hregion]

theorem length_pixels_image (h : info.stop ≤ bytes.length) :
    (info.image (info.fixed bytes)).pixels.length = info.layout.region := by
  rw [pixels_image h, BitOrder.length_fix, length_slice h, Info.stop]
  omega

end BootLogo.Bitmap
