import BootLogo.Proofs.Bitmap.Palette
import BootLogo.Proofs.Hardware.RegisterFile
import BootLogo.Proofs.Session.CommitModes
import BootLogo.Proofs.Session.Recovery

/-!
# The colours of a palette picture

A picture with a palette gives the overlay one word for each entry. How many there are depends on what the
file says, but the file cannot say enough to reach another register.

* `length_words_le`: an entry that is cut short is dropped, so there are no more words than entries.
* `mem_showLayerCalls`: nothing else that a picture tells the controller is for a palette.
* `Coloured`: what that leaves in the block of memory; `coloured_of_prefix`.
* `palette_stays_clear`: from the file to the registers.
-/

namespace BootLogo

open Compositor (State)
open Register (Map)

/-! ## Words of a palette -/

namespace Palette

variable {palette : Bytes}

theorem length_words_le {entries : Nat} (h : palette.length ≤ 4 * entries) :
    (words palette).length ≤ entries := by
  rw [← List.getElem?_eq_none_iff, words_getElem?, colour?, if_neg (by omega)]

end Palette

namespace RegisterFile

variable {map : Map} {file : RegisterFile} {palette : Bytes} {entries start : Nat}

theorem load_apply_palette (hmap : map.Laid) (h : file.Whole)
    (hwords : (Palette.words palette).length ≤ entries) (hentries : entries ≤ 256)
    (hstart : map.heo.clut = some start) :
    let given := apply map (.palette .heo (Palette.words palette)) file
    (∀ i < entries, given.load (start + 4 * i) =
      (Palette.colour? palette i).getD (file.load (start + 4 * i))) ∧
    ∀ place, place % 4 = 0 → (∀ i < entries, place ≠ start + 4 * i) →
      given.load place = file.load place := by
  intro given
  obtain ⟨haligned, hinside⟩ := hmap.inside (.palette .heo) (Region.mem_all _) start hstart
  have hroom : start + 4 * (Palette.words palette).length ≤ size := by
    have hregion : (Region.palette .heo).words = 256 := rfl
    omega
  have hgiven : given = file.storeAll start (Palette.words palette) := by
    simp only [given, apply, Map.layer, hstart]
  have hload {place : Nat} (hplace : place % 4 = 0) := load_storeAll h haligned hplace hroom
  refine ⟨fun i _ => ?_, fun place hplace hother => ?_⟩
  · rw [hgiven, hload (by omega), if_pos (Nat.le_add_right _ _), Nat.add_sub_cancel_left,
      Nat.mul_div_cancel_left i (by decide), Palette.words_getElem?]
  · rw [hgiven, hload hplace]
    split
    · -- the places behind the last entry get no word
      rename_i hbehind
      have hnone : (Palette.words palette)[(place - start) / 4]? = none := by
        refine List.getElem?_eq_none (hwords.trans (Nat.le_of_not_lt fun hlt => ?_))
        exact hother _ hlt (by omega)
      rw [hnone]
      rfl
    · rfl

end RegisterFile

/-! ## What a picture tells the controller -/

namespace Compositor

variable {compositor : Compositor} {frame : Frame} {placement : Placement} {mode : CommitMode} {call : Call}

/-- The call writes a register that the controllers have room for. -/
def Writes (call : Call) : Prop := ∃ register value, call = .write register value ∧ register.Usual

theorem writes_of_mem_commitCalls {layer : Layer} (h : call ∈ compositor.commitCalls layer) :
    Writes call := by
  rcases List.mem_cons.1 h with rfl | h
  · exact ⟨_, _, rfl, Nat.one_pos⟩
  · split at h
    · exact ⟨_, _, List.mem_singleton.1 h, Nat.one_pos⟩
    · cases h

theorem writes_of_mem_stagedCalls {layer : Layer} {register : Register} {value : UInt32}
    (h : call ∈ compositor.stagedCalls mode layer register value) (husual : register.Usual) :
    Writes call := by
  rcases List.mem_cons.1 h with rfl | h
  · exact ⟨_, _, rfl, husual⟩
  · split at h
    · exact writes_of_mem_commitCalls h
    · cases h

theorem writes_of_mem_configCalls {index : Nat} {value : UInt32} (hindex : index < 41)
    (h : call ∈ compositor.configCalls mode index value) : Writes call :=
  writes_of_mem_stagedCalls h hindex

/-- What a picture may tell the controller: its registers, its palette, and the taps of the phase filter. -/
inductive Tells (image : Bitmap.Image) : Call → Prop where
  | register {call : Call} (h : Writes call) : Tells image call
  | palette (hindexed : image.format.isIndexed = true) :
      Tells image (.palette .heo (Palette.words image.palette))
  | across : Tells image (.taps .horizontal Scaler.horizontalTaps)
  | down : Tells image (.taps .vertical Scaler.verticalTaps)

theorem tells_of_mem_describeCalls {image : Bitmap.Image}
    (h : call ∈ compositor.describeCalls mode image placement) : Tells image call := by
  simp only [describeCalls, List.mem_append, List.mem_ite_nil_right, List.mem_singleton] at h
  rcases h with ((((((h | h) | h) | h) | h) | ⟨-, h⟩) | h) | ⟨hindexed, rfl⟩
  case inr => exact .palette hindexed
  all_goals exact .register (writes_of_mem_configCalls (by decide) h)

theorem step_of_mem_program {scaler : Scaler} {xFactor yFactor : UInt32} {step : Scaler.Step}
    (h : step ∈ scaler.program xFactor yFactor) :
    (∃ index value, step = .config index value ∧ index < 41) ∨
      step = .taps .horizontal Scaler.horizontalTaps ∨ step = .taps .vertical Scaler.verticalTaps := by
  cases scaler with
  | phaseTable =>
    simp only [Scaler.program, List.mem_cons, List.not_mem_nil, or_false] at h
    rcases h with rfl | rfl | rfl
    · exact .inr (.inl rfl)
    · exact .inr (.inr rfl)
    · exact .inl ⟨_, _, rfl, by decide⟩
  | ratio =>
    simp only [Scaler.program, List.mem_cons, List.not_mem_nil, or_false] at h
    rcases h with rfl | rfl | rfl | rfl | rfl | rfl | rfl | rfl | rfl
    all_goals exact .inl ⟨_, _, rfl, by decide⟩

theorem tells_of_mem_scalerCalls {image : Bitmap.Image}
    (h : call ∈ compositor.scalerCalls mode placement) : Tells image call := by
  obtain ⟨step, hstep, hcall⟩ := List.mem_flatMap.1 h
  rcases step_of_mem_program hstep with ⟨index, value, rfl, hindex⟩ | rfl | rfl
  · exact .register (writes_of_mem_configCalls hindex hcall)
  · exact List.mem_singleton.1 hcall ▸ .across
  · exact List.mem_singleton.1 hcall ▸ .down

theorem tells_of_mem_pointCalls {image : Bitmap.Image} {origin : UInt32}
    (h : call ∈ compositor.pointCalls mode origin) : Tells image call := by
  simp only [pointCalls, List.mem_append, List.mem_ite_nil_right] at h
  rcases h with (h | ⟨-, h | h⟩) | h
  case inr => exact .register (writes_of_mem_configCalls (by decide) h)
  all_goals exact .register (writes_of_mem_stagedCalls h Nat.one_pos)

theorem tells_of_mem_showLayerCalls (h : call ∈ compositor.showLayerCalls frame placement mode) :
    Tells frame.image call := by
  simp only [showLayerCalls, deferredCalls, List.mem_append, List.mem_ite_nil_right] at h
  rcases h with ((h | ⟨-, h⟩) | h) | ⟨-, h⟩
  · exact tells_of_mem_describeCalls h
  · exact tells_of_mem_scalerCalls h
  · exact tells_of_mem_pointCalls h
  · exact .register (writes_of_mem_commitCalls h)

theorem palette_mem_showLayerCalls (h : frame.image.format.isIndexed = true) :
    .palette .heo (Palette.words frame.image.palette) ∈ compositor.showLayerCalls frame placement mode := by
  simp [showLayerCalls, describeCalls, h]

end Compositor

/-! ## What is left in the block -/

namespace Compositor

variable {image : Bitmap.Image} {call : Call} {calls : List Call}

theorem paletteEntries_le (format : PixelFormat) : format.paletteEntries ≤ 256 := by
  cases format <;> decide

theorem Tells.usual (h : Tells image call) (hpalette : (Palette.words image.palette).length ≤ 256) :
    RegisterFile.Usual call := by
  cases h with
  | register h =>
    obtain ⟨register, value, rfl, husual⟩ := h
    exact husual
  | palette _ => exact hpalette
  | across => decide
  | down => decide

theorem Tells.colour? (h : Tells image call) (layer : Layer) (i : Nat) :
    RegisterFile.colour? layer i call = none ∨
      layer = .heo ∧ RegisterFile.colour? layer i call = Palette.colour? image.palette i := by
  cases h with
  | register h =>
    obtain ⟨register, value, rfl, -⟩ := h
    exact .inl rfl
  | palette _ =>
    rw [← Palette.words_getElem?]
    cases layer with
    | base => exact .inl rfl
    | heo => exact .inr ⟨rfl, rfl⟩
  | across => exact .inl rfl
  | down => exact .inl rfl

/-- What calls leave in a word of a palette, if all tell the controller about one picture. -/
theorem last?_colour? (h : ∀ call ∈ calls, Tells image call) (layer : Layer) (i : Nat) :
    last? (RegisterFile.colour? layer i) calls = none ∨
      layer = .heo ∧ last? (RegisterFile.colour? layer i) calls = Palette.colour? image.palette i := by
  cases hlast : last? (RegisterFile.colour? layer i) calls with
  | none => exact .inl rfl
  | some value =>
    obtain ⟨call, hcall, hvalue⟩ := List.exists_of_findSome?_eq_some hlast
    rw [← hvalue]
    exact (h call (List.mem_reverse.1 hcall)).colour? layer i

theorem last?_colour?_of_mem (h : ∀ call ∈ calls, Tells image call)
    (hpalette : .palette .heo (Palette.words image.palette) ∈ calls) (i : Nat) :
    last? (RegisterFile.colour? .heo i) calls = Palette.colour? image.palette i := by
  rcases last?_colour? h .heo i with hnone | ⟨-, hlast⟩
  · have hcall := List.findSome?_eq_none_iff.1 hnone _ (List.mem_reverse.2 hpalette)
    rw [hnone, ← Palette.words_getElem?]
    exact hcall.symm
  · exact hlast

end Compositor

/-- What showing a picture does to the palettes of the layers. -/
structure Coloured (map : Map) (image : Bitmap.Image) (file : RegisterFile)
    (run : Run RegisterFile (Option Placement)) : Prop where
  /-- Only the overlay is given a palette, and it is the picture's. -/
  given : ∀ layer words, .palette layer words ∈ run.trace.calls →
    layer = .heo ∧ words = Palette.words image.palette
  /-- A word that is not as it was is the colour of an entry. -/
  changed : ∀ start ∈ map.heo.clut, ∀ i < 256,
    run.hardware.load (start + 4 * i) = file.load (start + 4 * i) ∨
      i < image.format.paletteEntries ∧
        Palette.colour? image.palette i = some (run.hardware.load (start + 4 * i))
  base : ∀ start ∈ map.base.clut, ∀ i < 256,
    run.hardware.load (start + 4 * i) = file.load (start + 4 * i)
  /-- In the end every entry that is there in full has its word. -/
  shown : run.ending = .ok none → ∀ start ∈ map.heo.clut, ∀ i < 256,
    run.hardware.load (start + 4 * i) =
      (Palette.colour? image.palette i).getD (file.load (start + 4 * i))

namespace Compositor

variable {compositor : Compositor} {image : Bitmap.Image} {file : RegisterFile}

theorem load_after {calls : List Call} (hmap : compositor.map.Laid) (h : file.Whole)
    (hcalls : ∀ call ∈ calls, Tells image call) (hwords : (Palette.words image.palette).length ≤ 256)
    {layer : Layer} {start i : Nat} (hstart : start ∈ (compositor.map.layer layer).clut) (hi : i < 256) :
    (file.after compositor.map calls).load (start + 4 * i) =
      (last? (RegisterFile.colour? layer i) calls).getD (file.load (start + 4 * i)) := by
  have hplace : compositor.map.start? (.palette layer) = some start := hstart
  have hcell := RegisterFile.cell_after hmap h (fun call hcall => (hcalls call hcall).usual hwords)
    (show i < (Region.palette layer).words from hi) (by rw [hplace]; rfl)
  simpa only [RegisterFile.leaves?_palette, RegisterFile.cell, hplace] using hcell

theorem showLayer_colours (hmap : compositor.map.Laid) (h : file.Whole)
    (hpalette : image.palette.length ≤ 4 * image.format.paletteEntries)
    (hcolour : image.format.isIndexed = false → image.palette = []) (address : UInt32) (placement : Placement)
    (mode : CommitMode) (patience : Nat) (state : State) :
    Coloured compositor.map image file ((Operation.showLayer ⟨image, address⟩ placement mode).perform
      (RegisterFile.hardware compositor.map) patience compositor state file) := by
  have hreplays := (Operation.showLayer ⟨image, address⟩ placement mode).perform_replays
    (RegisterFile.hardware compositor.map) patience compositor state file
  have hfront : ((Operation.showLayer ⟨image, address⟩ placement mode).perform
      (RegisterFile.hardware compositor.map) patience compositor state file).trace.calls <+:
        compositor.showLayerCalls ⟨image, address⟩ placement mode :=
    Layering.calls_prefix (.overlay ⟨image, address⟩ placement) mode _ patience file
  have hok := @calls_showLayer compositor ⟨image, address⟩ placement mode _
    (RegisterFile.hardware compositor.map) patience state file none
  generalize (Operation.showLayer ⟨image, address⟩ placement mode).perform
    (RegisterFile.hardware compositor.map) patience compositor state file = run at hreplays hfront hok ⊢
  have htells : ∀ call ∈ run.trace.calls, Tells image call :=
    fun call hcall => tells_of_mem_showLayerCalls (hfront.subset hcall)
  have hwords := (Palette.length_words_le hpalette).trans (paletteEntries_le image.format)
  have hload {layer : Layer} {start i : Nat} (hstart : start ∈ (compositor.map.layer layer).clut)
      (hi : i < 256) :
      run.hardware.load (start + 4 * i) =
        (last? (RegisterFile.colour? layer i) run.trace.calls).getD (file.load (start + 4 * i)) := by
    rw [hreplays, RegisterFile.replay_eq]
    exact load_after hmap h htells hwords hstart hi
  constructor
  case given =>
    intro layer words hcall
    cases htells _ hcall with
    | register hwrites =>
      obtain ⟨register, value, heq, -⟩ := hwrites
      cases heq
    | palette _ => exact ⟨rfl, rfl⟩
  case changed =>
    intro start hstart i hi
    rw [@hload .heo start i hstart hi]
    rcases last?_colour? htells .heo i with hnone | ⟨-, hlast⟩
    · rw [hnone]
      exact .inl rfl
    · rw [hlast]
      cases hentry : Palette.colour? image.palette i with
      | none => exact .inl rfl
      | some value =>
        refine .inr ⟨?_, rfl⟩
        unfold Palette.colour? at hentry
        split at hentry
        · omega
        · cases hentry
  case base =>
    intro start hstart i hi
    have hnone := (last?_colour? htells .base i).resolve_right fun hlayer => nomatch hlayer.1
    rw [@hload .base start i hstart hi, hnone]
    rfl
  case shown =>
    intro hending start hstart i hi
    rw [@hload .heo start i hstart hi]
    cases hindexed : image.format.isIndexed with
    | true =>
      have hmem := @palette_mem_showLayerCalls compositor ⟨image, address⟩ placement mode hindexed
      rw [last?_colour?_of_mem htells (hok hending ▸ hmem)]
    | false =>
      -- without entries there is nothing to leave
      have hnil : Palette.colour? image.palette i = none := by
        rw [hcolour hindexed]
        rfl
      rcases last?_colour? htells .heo i with hnone | ⟨-, hlast⟩
      · rw [hnone, hnil]
      · rw [hlast]

end Compositor

/-- **The palette stays clear of the pixels and of other registers.** It is the part of the file between the
header and the pixels, as it was, and no longer than the entries take. What is written for it lies in the
places of these entries, one word for each that is there in full. -/
theorem palette_stays_clear {bytes : Bytes} {info : Bitmap.Info} {image : Bitmap.Image}
    (h : (Bitmap.interpret bytes).result = .ok (info, image)) :
    let first := 14 + bytes.word 14
    let entries := image.format.paletteEntries
    let last := min (bytes.word 10) (first + 4 * entries)
    let after := (Bitmap.interpret bytes).bytes
    let words := Palette.words image.palette
    image.palette = (bytes.drop first).take (last - first) ∧ image.palette.length = last - first ∧
    (image.format.isIndexed = false → image.palette = []) ∧
    (∀ most, bytes.length ≤ most → info.paletteWithin most after = image.palette) ∧
    image.pixels = (after.drop (bytes.word 10)).take image.pixels.length ∧
    (∀ i < image.palette.length, first + i < bytes.word 10 ∧ after[first + i]? = bytes[first + i]?) ∧
    words.length ≤ entries ∧ (∀ i, words[i]? = Palette.colour? image.palette i) ∧
    ∀ compositor : Compositor,
      compositor.map = Register.sama5d2 ∨ compositor.map = Register.sam9x60 ∨
        compositor.map = Register.sam9x7 →
      ∀ file : RegisterFile, file.Whole →
        (∀ start ∈ compositor.map.heo.clut,
          let given := RegisterFile.apply compositor.map (.palette .heo words) file
          (∀ i < entries, given.load (start + 4 * i) =
            (Palette.colour? image.palette i).getD (file.load (start + 4 * i))) ∧
          ∀ place, place % 4 = 0 → (∀ i < entries, place ≠ start + 4 * i) →
            given.load place = file.load place) ∧
        ∀ address placement mode patience state,
          Coloured compositor.map image file
            ((Operation.showLayer ⟨image, address⟩ placement mode).perform
              (RegisterFile.hardware compositor.map) patience compositor state file) := by
  intro first entries last after words
  obtain ⟨hinfo, rfl⟩ := Bitmap.interpret_eq_ok.1 h
  have hafter : after = info.fixed bytes := Bitmap.bytes_interpret hinfo
  obtain ⟨hstart, -⟩ := Bitmap.header_of_inspect hinfo
  obtain ⟨-, -, -, hstop⟩ := Bitmap.inspect_eq_ok hinfo
  have hlength : (info.image (info.fixed bytes)).palette.length = last - first :=
    Bitmap.length_palette_image hinfo
  have hlast : last ≤ bytes.word 10 := Nat.min_le_left _ _
  have hentries : last ≤ first + 4 * entries := Nat.min_le_right _ _
  have hwords : words.length ≤ entries := Palette.length_words_le (by omega)
  have hcolour := Bitmap.palette_image_of_not_indexed hinfo
  have hlimit := Compositor.paletteEntries_le info.format
  refine ⟨Bitmap.palette_image hinfo, hlength, hcolour, fun most hmost => ?_, ?_, fun i hi => ⟨by omega, ?_⟩,
    hwords, Palette.words_getElem? _, fun compositor hmap file hfile => ⟨fun start hclut => ?_, ?_⟩⟩
  · have hpixels : info.start ≤ bytes.length := (Nat.le_add_right _ _).trans hstop
    rw [← Bitmap.length_fixed hinfo] at hpixels hmost
    rw [hafter, Bitmap.paletteWithin_eq hpixels hmost]
    rfl
  · have hregion : info.stop - info.start = info.layout.region := Nat.add_sub_cancel_left _ _
    rw [Bitmap.length_pixels_image hstop, ← hregion, hafter, ← hstart]
    rfl
  · rw [hafter, Bitmap.getElem?_fixed hstop, if_neg (by omega)]
  · exact RegisterFile.load_apply_palette (laid_of_known hmap) hfile hwords hlimit hclut
  · exact Compositor.showLayer_colours (laid_of_known hmap) hfile (by omega) hcolour

/-- Two by one pixels of four bits, with two entries and the first byte of a third. -/
def Bitmap.twoColoured : Bytes :=
  [66, 77, 67, 0, 0, 0, 0, 0, 0, 0, 63, 0, 0, 0, 40, 0, 0, 0, 2, 0, 0, 0, 1, 0, 0, 0, 1, 0, 4, 0,
    0, 0, 0, 0, 0, 0, 0, 0, 0, 0, 0, 0, 0, 0, 0, 0, 0, 0, 0, 0, 0, 0, 0, 0] ++
  [1, 2, 3, 0, 4, 5, 6, 0, 7] ++ [16, 0, 0, 0]

def Bitmap.twoColouredInfo : Info := ⟨.fields twoColoured, .clut4, ⟨2, 1, 1, 3, 0, 3⟩⟩

def Bitmap.twoColouredImage : Image := twoColouredInfo.image (twoColouredInfo.fixed twoColoured)

/-- Shows the picture on a block of zeroes, the controller of the first generation being fully up. -/
def showTwoColoured : Run RegisterFile (Option Placement) :=
  (Operation.showLayer ⟨Bitmap.twoColouredImage, 0x2000⟩
    (.compute ⟨2, 1⟩ Compositor.xult.board.panel.size 0 .phaseTable) .deferred).perform
      (RegisterFile.hardware Register.sama5d2) 1 Compositor.xult ⟨.pwm, .deferred, true, .blank⟩
      RegisterFile.zeroed

theorem palette_stays_clear_twoColoured :
    (Bitmap.interpret Bitmap.twoColoured).result =
        .ok (Bitmap.twoColouredInfo, Bitmap.twoColouredImage) ∧
      Bitmap.twoColouredImage.palette = [1, 2, 3, 0, 4, 5, 6, 0, 7] ∧
      Coloured Register.sama5d2 Bitmap.twoColouredImage RegisterFile.zeroed showTwoColoured ∧
      showTwoColoured.ending = .ok none ∧
      showTwoColoured.hardware.load 0x1200 = 0x30201 ∧ showTwoColoured.hardware.load 0x1204 = 0x60504 ∧
      showTwoColoured.hardware.load 0x1208 = 0 := by
  have hresult : (Bitmap.interpret Bitmap.twoColoured).result =
      .ok (Bitmap.twoColouredInfo, Bitmap.twoColouredImage) := rfl
  obtain ⟨hpalette, -, -, -, -, -, -, -, hshown⟩ := palette_stays_clear hresult
  have hcoloured : Coloured Register.sama5d2 Bitmap.twoColouredImage RegisterFile.zeroed showTwoColoured :=
    (hshown Compositor.xult (.inl rfl) RegisterFile.zeroed RegisterFile.zeroed_whole).2 0x2000 _ .deferred 1 _
  have hok : showTwoColoured.ending = .ok none := by decide +kernel
  have hword {i : Nat} {colour : Option UInt32} (hi : i < 256)
      (hcolour : Palette.colour? [1, 2, 3, 0, 4, 5, 6, 0, 7] i = colour) :
      showTwoColoured.hardware.load (0x1200 + 4 * i) = colour.getD 0 := by
    have hzero : RegisterFile.zeroed.load (0x1200 + 4 * i) = 0 :=
      RegisterFile.cell_zeroed Register.sama5d2 (.palette .heo) i
    rw [hcoloured.shown hok 0x1200 rfl i hi, hzero, hpalette]
    exact congrArg (·.getD 0) hcolour
  exact ⟨hresult, hpalette, hcoloured, hok, @hword 0 (some 0x30201) (by decide) (by decide),
    @hword 1 (some 0x60504) (by decide) (by decide), @hword 2 none (by decide) (by decide)⟩

end BootLogo
