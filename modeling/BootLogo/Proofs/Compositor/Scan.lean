import BootLogo.Proofs.Bitmap.FetchOrder
import BootLogo.Proofs.Compositor.Overlay
import BootLogo.Proofs.Register.Packing

/-!
# How the overlay walks through memory

A `Scan` is what the controller does with a frame: it reads a row of pixels, adds the stride to its
address, and reads the next row.

* `Scan.after`: the walk that the registers of the overlay describe. `Scan.after_eq`: they describe the
  walk of a frame (`Frame.scan`) if they hold its origin, size and stride.
* `fetch_scan`: the walk of a frame that lies in memory leads through the rows of its bitmap from the bottom
  up. `mem_pixels_of_mem_addresses`: it never leaves the pixels.
-/

namespace BootLogo

open Bitmap (Info inspect slice)

/-! ## Words -/

theorem Bytes.signed_ofInt {value : Int} (hlow : -2147483648 ≤ value) (hhigh : value < 2147483648) :
    Bytes.signed (UInt32.ofInt value).toNat = value := by
  have htoNat : (UInt32.ofInt value).toNat = (value % 4294967296).toNat := by
    rw [UInt32.ofInt, UInt32.toNat_ofNat']
    omega
  rw [htoNat, Bytes.signed]
  simp only [wordLimit]
  split <;> omega

theorem toNat_add_ofNat {address : UInt32} {offset : Nat} (h : address.toNat + offset < wordLimit) :
    (address + .ofNat offset).toNat = address.toNat + offset := by
  simp only [wordLimit] at h
  rw [UInt32.toNat_add, UInt32.toNat_ofNat']
  omega

/-! ## Bytes in memory -/

/-- The memory holds the bytes from an address on. -/
def Bytes.LieAt (memory : Nat → UInt8) (address : Nat) (bytes : Bytes) : Prop :=
  ∀ offset (h : offset < bytes.length), memory (address + offset) = bytes[offset]

theorem Bytes.LieAt.of_append {memory : Nat → UInt8} {address : Nat} {bytes rest : Bytes}
    (h : (bytes ++ rest).LieAt memory address) : bytes.LieAt memory address := by
  intro offset hoffset
  rw [h offset (by rw [List.length_append]; omega), List.getElem_append_left hoffset]

theorem Bytes.LieAt.map_range {memory : Nat → UInt8} {address start count : Nat} {bytes : Bytes}
    (h : bytes.LieAt memory address) (hroom : start + count ≤ bytes.length) :
    (List.range count).map (fun offset => memory (address + (start + offset))) =
      slice bytes start (start + count) := by
  refine List.ext_getElem ?_ fun offset hoffset hslice => ?_
  · rw [Bitmap.length_slice hroom, List.length_map, List.length_range]
    omega
  · rw [List.length_map, List.length_range] at hoffset
    simp only [slice, List.getElem_map, List.getElem_range, List.getElem_take, List.getElem_drop]
    exact h (start + offset) (by omega)

/-! ## Walks -/

/-- A walk over a frame. -/
structure Scan where
  /-- Where the first row is read. -/
  start : Nat
  /-- The pixels of a row. -/
  width : Nat
  /-- The rows. -/
  height : Nat
  /-- Added to the address after each row. -/
  stride : Int
  deriving DecidableEq

namespace Scan

/-- The walk that the overlay's registers describe after some calls. The sizes are less one there, and the
stride is a signed number. -/
def after (calls : List Call) : Scan where
  start := (registerAfter (.layerAddr .heo) calls).toNat
  width := Field.bits 0 11 (registerAfter (.layerCfg .heo 4) calls) + 1
  height := Field.bits 16 11 (registerAfter (.layerCfg .heo 4) calls) + 1
  stride := Bytes.signed (registerAfter Compositor.strideRegister calls).toNat

/-- The bytes that are read for a row. -/
def rowBytes (scan : Scan) (format : PixelFormat) : Nat := scan.width * format.bitsPerPixel ⌈/⌉ 8

/-- Where the row `index` is read. -/
def rowStart (scan : Scan) (format : PixelFormat) (index : Nat) : Int :=
  scan.start + index * (scan.rowBytes format + scan.stride)

/-- The addresses that are read for the row `index`. -/
def row (scan : Scan) (format : PixelFormat) (index : Nat) : List Int :=
  (List.range (scan.rowBytes format)).map fun offset => scan.rowStart format index + (offset : Nat)

/-- All addresses that are read, row by row. -/
def addresses (scan : Scan) (format : PixelFormat) : List (List Int) :=
  (List.range scan.height).map (scan.row format)

/-- What is read. -/
def fetch (scan : Scan) (format : PixelFormat) (memory : Nat → UInt8) : List Bytes :=
  (scan.addresses format).map fun row => row.map fun address => memory address.toNat

end Scan

/-- The walk over a frame. -/
def Frame.scan (frame : Frame) : Scan :=
  ⟨frame.origin.toNat, frame.image.width, frame.image.height, frame.image.stride⟩

/-! ## Walks that registers describe -/

theorem Size.fitsLayer_iff {size : Size} : size.fitsLayer = true ↔
    0 < size.width ∧ 0 < size.height ∧ size.width ≤ Panel.activeLimit ∧
      size.height ≤ Panel.activeLimit :=
  decide_eq_true_iff

theorem Placement.fitsLayer_of_validate {placement : Placement} (h : placement.validate = .ok ()) :
    placement.source.fitsLayer = true ∧ placement.scaled.fitsLayer = true := by
  unfold validate at h
  split at h
  · cases h
  · rename_i hnone
    rw [List.find?_eq_none] at hnone
    have hfits {size : Size} (hmem : size ∈ [placement.source, placement.scaled]) :
        size.fitsLayer = true := by
      simpa using hnone size hmem
    exact ⟨hfits List.mem_cons_self, hfits (List.mem_cons_of_mem _ List.mem_cons_self)⟩

theorem Bitmap.Layout.Lays.stride_bounds {layout : Layout} {format : PixelFormat} {width height : Int}
    (h : layout.Lays format width height) (hfits : layout.width ≤ Panel.activeLimit) :
    -2147483648 ≤ layout.stride ∧ layout.stride < 2147483648 := by
  obtain ⟨-, hrow⟩ := h.rowBytes_bounds
  have hpadding := h.rowPadding_lt
  simp only [Panel.activeLimit] at hfits
  rcases Int.lt_or_gt_of_ne h.height_ne with hneg | hpos
  · obtain ⟨-, hstride⟩ := h.topDown hneg
    rw [hstride, Layout.rowStride]
    omega
  · obtain ⟨-, hstride⟩ := h.bottomUp hpos
    rw [hstride]
    omega

theorem Scan.after_eq {calls : List Call} {frame : Frame}
    (horigin : registerAfter (.layerAddr .heo) calls = frame.origin)
    (hsize : registerAfter (.layerCfg .heo 4) calls =
      Field.size (.ofNat frame.image.width) (.ofNat frame.image.height))
    (hstride : registerAfter Compositor.strideRegister calls = .ofInt frame.image.stride)
    (hfits : frame.size.fitsLayer = true) (hlow : -2147483648 ≤ frame.image.stride)
    (hhigh : frame.image.stride < 2147483648) :
    Scan.after calls = frame.scan := by
  obtain ⟨hwidth, hheight, hwidthLimit, hheightLimit⟩ := Size.fitsLayer_iff.1 hfits
  obtain ⟨hacross, hdown⟩ := Field.bits_size hwidth hheight hwidthLimit hheightLimit
  rw [Scan.after, horigin, hsize, hstride, Bytes.signed_ofInt hlow hhigh]
  exact congrArg₂ (Scan.mk _ · · _) hacross hdown

/-! ## Walks through bitmaps -/

section Bitmaps

variable {bitmap : Bytes} {info : Info} {base : UInt32} {memory : Nat → UInt8} {index : Nat}

/-- The frame of a bitmap that lies at an address. -/
def Bitmap.Info.frame (info : Info) (bitmap : Bytes) (base : UInt32) : Frame :=
  ⟨info.image (info.fixed bitmap), base + .ofNat info.start⟩

theorem rowBytes_scan (hinfo : inspect bitmap = .ok info) :
    (info.frame bitmap base).scan.rowBytes info.format = info.layout.rowBytes := by
  obtain ⟨-, -, hlays, -⟩ := Bitmap.inspect_eq_ok hinfo
  exact hlays.rowBytes_eq.symm

theorem toNat_origin (hinfo : inspect bitmap = .ok info)
    (hlimit : base.toNat + bitmap.length ≤ wordLimit) :
    (info.frame bitmap base).origin.toNat = base.toNat + info.start + info.layout.origin := by
  obtain ⟨-, -, hlays, hstop⟩ := Bitmap.inspect_eq_ok hinfo
  -- the first row is one of the stored rows and not empty, so it starts inside the bitmap
  have hfirst : 0 < info.layout.height := by
    rw [hlays.height_eq]
    exact Int.natAbs_pos.2 hlays.height_ne
  have horigin : (info.layout.origin : Int) + 0 * (info.layout.rowBytes + info.layout.stride) =
      (info.storedAt 0 * info.layout.rowStride : Nat) := Bitmap.cursor_eq hinfo hfirst
  have hfits := Bitmap.storedRow_le_region (Bitmap.storedAt_lt hfirst)
  obtain ⟨hrow, -⟩ := hlays.rowBytes_bounds
  have hwidth := hlays.width_pos
  rw [Info.stop] at hstop
  have hbelow : base.toNat + info.start + info.layout.origin < wordLimit := by omega
  have hpixels : (base + .ofNat info.start).toNat = base.toNat + info.start :=
    toNat_add_ofNat (by omega)
  show (base + .ofNat info.start + .ofNat info.layout.origin).toNat = _
  rw [toNat_add_ofNat (hpixels ▸ hbelow), hpixels]

theorem rowStart_scan (hinfo : inspect bitmap = .ok info)
    (hlimit : base.toNat + bitmap.length ≤ wordLimit) (hindex : index < info.layout.height) :
    (info.frame bitmap base).scan.rowStart info.format index =
      (base.toNat + (info.start + info.storedAt index * info.layout.rowStride) : Nat) := by
  have hcursor : (info.layout.origin : Int) + index * (info.layout.rowBytes + info.layout.stride) =
      (info.storedAt index * info.layout.rowStride : Nat) := Bitmap.cursor_eq hinfo hindex
  rw [Scan.rowStart, rowBytes_scan hinfo]
  show ((info.frame bitmap base).origin.toNat : Int) +
    index * (info.layout.rowBytes + info.layout.stride) = _
  rw [toNat_origin hinfo hlimit]
  push_cast at hcursor ⊢
  rw [← hcursor]
  ring

/-- **The walk over a bitmap reads its rows from the bottom up**, in the layer's bit order. -/
theorem fetch_scan (hinfo : inspect bitmap = .ok info)
    (hlimit : base.toNat + bitmap.length ≤ wordLimit)
    (hmemory : (info.fixed bitmap).LieAt memory base.toNat) :
    (info.frame bitmap base).scan.fetch info.format memory =
      (List.range info.layout.height).map fun index =>
        BitOrder.fix info.format (info.pictureRow bitmap index) := by
  obtain ⟨-, -, -, hstop⟩ := Bitmap.inspect_eq_ok hinfo
  rw [Scan.fetch, Scan.addresses, List.map_map]
  refine List.map_congr_left fun index hindex => ?_
  have hindex : index < info.layout.height := List.mem_range.1 hindex
  have hfits := Bitmap.storedRow_le_region (Bitmap.storedAt_lt hindex)
  have hlength := Bitmap.length_fixed hinfo
  let place := info.start + info.storedAt index * info.layout.rowStride
  have hinside : place + info.layout.rowBytes ≤ info.stop := by
    simp only [place, Info.stop]
    omega
  calc ((info.frame bitmap base).scan.row info.format index).map (fun address => memory address.toNat)
      = (List.range info.layout.rowBytes).map fun offset => memory (base.toNat + (place + offset)) := by
        rw [Scan.row, List.map_map, rowBytes_scan hinfo, rowStart_scan hinfo hlimit hindex]
        refine List.map_congr_left fun offset _ => congrArg memory ?_
        simp only [place]
        omega
    _ = slice (info.fixed bitmap) place (place + info.layout.rowBytes) :=
        hmemory.map_range (by omega)
    _ = (info.image (info.fixed bitmap)).storedRow (info.storedAt index) := by
        rw [Bitmap.Image.storedRow]
        show _ = slice (slice (info.fixed bitmap) info.start info.stop) _ _
        rw [Bitmap.slice_slice, Nat.add_assoc]
        · rfl
        · rw [← Nat.add_assoc]
          exact hinside
    _ = BitOrder.fix info.format (info.pictureRow bitmap index) := Bitmap.storedRow_eq hinfo hindex

theorem mem_pixels_of_mem_addresses (hinfo : inspect bitmap = .ok info)
    (hlimit : base.toNat + bitmap.length ≤ wordLimit) {row : List Int} {address : Int}
    (hrow : row ∈ (info.frame bitmap base).scan.addresses info.format) (haddress : address ∈ row) :
    (base.toNat + info.start : Nat) ≤ address ∧ address < (base.toNat + info.stop : Nat) := by
  obtain ⟨index, hindex, rfl⟩ := List.mem_map.1 hrow
  obtain ⟨offset, hoffset, rfl⟩ := List.mem_map.1 haddress
  have hindex : index < info.layout.height := List.mem_range.1 hindex
  have hfits := Bitmap.storedRow_le_region (Bitmap.storedAt_lt hindex)
  rw [List.mem_range, rowBytes_scan hinfo] at hoffset
  rw [rowStart_scan hinfo hlimit hindex, Info.stop]
  omega

end Bitmaps

end BootLogo
