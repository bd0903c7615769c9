import BootLogo.Proofs.Boards
import BootLogo.Proofs.Compositor.Scan
import BootLogo.Proofs.Placement.Words
import BootLogo.Proofs.Session.CommitModes

/-!
# A picture is centred, and the layer is told so

* `Centred`: where an axis of a picture lies on the panel; `centre_centred`.
* `overlayValue?_of_mem_calls`: whatever is written to a register of the frame, in whichever mode and however
  far a picture gets, is the value of that register.
* `Placement.ReadBack`: the words for the place of a picture say what the place is. Every field is wide enough:
  a position is below half of what a panel can have, and sizes are checked before anything is written.
* `placement_centred` puts them together.
-/

namespace BootLogo

open Compositor (State)

/-! ## On the panel -/

/-- An axis that does not fit starts at zero. One that fits has the same margin on both sides, the far one
larger by a pixel if the margins do not come out even. -/
def Centred (panel scaled : Nat) (position : Int) : Prop :=
  if panel ≤ scaled then position = 0
  else
    let farMargin := panel - (position + scaled)
    0 ≤ position ∧ position + scaled ≤ panel ∧ (farMargin - position = 0 ∨ farMargin - position = 1)

theorem centre_centred (panel scaled : Nat) : Centred panel scaled (centre panel scaled) := by
  unfold Centred centre
  split
  · rename_i hle
    rw [Nat.sub_eq_zero_of_le hle]
    rfl
  · dsimp only
    omega

/-! ## In the registers -/

namespace Compositor

variable {compositor : Compositor} {frame : Frame} {placement : Placement} {mode : CommitMode}
  {register : Register} {value : UInt32}

theorem overlayValue?_of_mem_staging (hregister : register ∈ frameRegisters)
    (h : .write register value ∈ (Layering.overlay frame placement).staging compositor .deferred) :
    compositor.overlayValue? frame placement register = some value := by
  -- the scaler's own registers come after those of the frame
  have hscaler : .write register value ∉ compositor.scalerCalls .deferred placement := by
    intro h
    obtain ⟨step, hstep, hcall⟩ := List.mem_flatMap.1 h
    cases step with
    | taps axis table => cases List.mem_singleton.1 hcall
    | config index word =>
      cases List.mem_singleton.1 hcall
      have hindex := le_of_config_mem_program hstep
      simp [frameRegisters] at hregister
      omega
  simp only [Layering.staging, describeCalls, pointCalls, configCalls, stagedCalls, reduceCtorEq, if_false,
    List.mem_append, List.mem_singleton, List.mem_ite_nil_right, hscaler, and_false, or_false,
    Call.write.injEq, or_assoc] at h
  rcases h with ⟨rfl, rfl⟩ | ⟨rfl, rfl⟩ | ⟨rfl, rfl⟩ | ⟨rfl, rfl⟩ | ⟨rfl, rfl⟩ | ⟨hstride, rfl, rfl⟩ |
    ⟨rfl, rfl⟩ | ⟨rfl, rfl⟩ | ⟨hdescriptors, ⟨rfl, rfl⟩ | ⟨rfl, rfl⟩⟩ | ⟨rfl, rfl⟩
  case inr.inr.inr.inr.inr.inl => exact if_pos hstride
  all_goals first | rfl | exact if_pos hdescriptors

theorem overlayValue?_of_mem_calls (hregister : register ∈ frameRegisters)
    (h : .write register value ∈ (Layering.overlay frame placement).calls compositor mode) :
    compositor.overlayValue? frame placement register = some value := by
  have hcommits : (Call.write register value).commits .heo = false := by
    simp only [frameRegisters, List.map_cons, List.map_nil, List.cons_append, List.nil_append,
      List.mem_cons, List.not_mem_nil, or_false] at hregister
    rcases hregister with rfl | rfl | rfl | rfl | rfl | rfl | rfl | rfl | rfl | rfl | rfl <;> rfl
  refine overlayValue?_of_mem_staging hregister ?_
  rw [← Layering.filter_calls _ mode]
  exact List.mem_filter.2 ⟨h, by rw [Layering.layer, hcommits, Bool.not_false]⟩

end Compositor

namespace Placement

/-- Every word that is written for the place of a picture is read back as that place. -/
structure ReadBack (placement : Placement) (calls : List Call) : Prop where
  position : ∀ word, .write (.layerCfg .heo 2) word ∈ calls →
    (Field.bits 0 11 word : Int) = placement.x ∧ (Field.bits 16 11 word : Int) = placement.y
  scaled : ∀ word, .write (.layerCfg .heo 3) word ∈ calls →
    Field.bits 0 11 word + 1 = placement.scaled.width ∧ Field.bits 16 11 word + 1 = placement.scaled.height
  source : ∀ word, .write (.layerCfg .heo 4) word ∈ calls →
    Field.bits 0 11 word + 1 = placement.source.width ∧ Field.bits 16 11 word + 1 = placement.source.height

theorem bits_size_of_fits {size : Size} (hfits : size.fitsLayer = true) :
    Field.bits 0 11 (Field.size (.ofNat size.width) (.ofNat size.height)) + 1 = size.width ∧
      Field.bits 16 11 (Field.size (.ofNat size.width) (.ofNat size.height)) + 1 = size.height := by
  obtain ⟨hwidth, hheight, hwidthLimit, hheightLimit⟩ := Size.fitsLayer_iff.1 hfits
  exact Field.bits_size hwidth hheight hwidthLimit hheightLimit

variable {placement : Placement} {x y : Nat}

theorem readBack_of_prefix {compositor : Compositor} {frame : Frame} {mode : CommitMode} {calls : List Call}
    (hvalid : placement.validate = .ok ()) (hx : placement.x = x) (hxLimit : x < 2 ^ 11)
    (hy : placement.y = y) (hyLimit : y < 2 ^ 11)
    (hcalls : calls <+: (Layering.overlay frame placement).calls compositor mode) :
    placement.ReadBack calls := by
  obtain ⟨hsource, hscaled⟩ := fitsLayer_of_validate hvalid
  have hword {index : Nat} {word : UInt32} (hregister : .layerCfg .heo index ∈ Compositor.frameRegisters)
      (h : .write (.layerCfg .heo index) word ∈ calls) :
      compositor.overlayValue? frame placement (.layerCfg .heo index) = some word :=
    Compositor.overlayValue?_of_mem_calls hregister (hcalls.subset h)
  refine ⟨fun word h => ?_, fun word h => ?_, fun word h => ?_⟩
  · cases hword (by decide) h
    obtain ⟨hlow, hhigh⟩ := Field.bits_pos hxLimit hyLimit
    rw [hx, hy, hlow, hhigh]
    exact ⟨rfl, rfl⟩
  · cases hword (by decide) h
    exact bits_size_of_fits hscaled
  · cases hword (by decide) h
    exact bits_size_of_fits hsource

end Placement

/-- **A picture is centred, and the layer is told so.** No step of the placement overflows, the picture does not
shrink, it lies in the middle of the panel, and as far as it gets the controller is told just that. -/
theorem placement_centred {board : Board} (hboard : board.validate = .ok ()) {image : Size}
    (hwidth : image.width < 2 ^ 16) (hheight : image.height < 2 ^ 16) (scale : UInt8) (scaler : Scaler) :
    let panel := board.panel.size
    let placement := Placement.compute image panel scale scaler
    Placement.computeInWords image panel scale scaler = some placement ∧
    placement.source = image ∧
    placement.scaled = ⟨image.width * (8 + scale.toNat) / 8, image.height * (8 + scale.toNat) / 8⟩ ∧
    (scale = 0 → placement.scaled = image) ∧
    image.width ≤ placement.scaled.width ∧ image.height ≤ placement.scaled.height ∧
    Centred panel.width placement.scaled.width placement.x ∧
    Centred panel.height placement.scaled.height placement.y ∧
    (placement.validate = .ok () → ∀ {σ : Type} (hardware : Hardware σ) (patience : Nat)
      (compositor : Compositor) (frame : Frame) (mode : CommitMode) (state : State) (world : σ),
      let run := (Operation.showLayer frame placement mode).perform hardware patience compositor state world
      placement.ReadBack run.trace.calls ∧
        (run.ending = .ok none → ∀ index ∈ [2, 3, 4], ∃ word,
          .write (.layerCfg .heo index) word ∈ run.trace.calls)) := by
  intro panel placement
  have hpanel := (Board.validate_eq_ok_iff.1 hboard).1
  have hpanelWidth : panel.width ≤ 2048 := hpanel.width.2
  have hpanelHeight : panel.height ≤ 2048 := hpanel.height.2
  have hscaled : placement.scaled =
      ⟨image.width * (8 + scale.toNat) / 8, image.height * (8 + scale.toNat) / 8⟩ := scaledSize_eq image scale
  refine ⟨Placement.computeInWords_eq hwidth hheight (by omega) (by omega) scale scaler, rfl, hscaled,
    fun hscale => if_pos hscale, ?_, ?_, centre_centred _ _, centre_centred _ _, ?_⟩
  · rw [hscaled]
    exact le_scaledSide _ _
  · rw [hscaled]
    exact le_scaledSide _ _
  · intro hvalid σ hardware patience compositor frame mode state world run
    refine ⟨Placement.readBack_of_prefix hvalid rfl (by omega) rfl (by omega)
      (Layering.calls_prefix (.overlay frame placement) mode hardware patience world), fun hok => ?_⟩
    intro index hindex
    have hlast (index : Nat) (hregister : .layerCfg .heo index ∈ Compositor.frameRegisters) :=
      @Compositor.lastWritten?_showLayerCalls compositor frame placement mode _ hregister
    rw [Compositor.calls_showLayer hok]
    simp only [List.mem_cons, List.not_mem_nil, or_false] at hindex
    rcases hindex with rfl | rfl | rfl
    all_goals exact ⟨_, mem_of_lastWritten? (hlast _ (by decide))⟩

/-- A picture of 401 by 300 pixels that is enlarged by a quarter; neither axis has even margins. -/
def oddPlacement : Placement := .compute ⟨401, 300⟩ Compositor.xult.board.panel.size 2 .phaseTable

def showOdd : Run Recorder (Option Placement) :=
  (Operation.showLayer (Compositor.square 4) oddPlacement .immediate).perform Recorder.hardware 1
    Compositor.xult Compositor.started.state Compositor.started.hardware

theorem placement_centred_odd :
    Compositor.xult.board.validate = .ok () ∧ oddPlacement.validate = .ok () ∧ showOdd.ending = .ok none ∧
      Placement.computeInWords ⟨401, 300⟩ Compositor.xult.board.panel.size 2 .phaseTable =
        some oddPlacement ∧
      oddPlacement.scaled = ⟨501, 375⟩ ∧ Centred 800 501 149 ∧ Centred 480 375 52 ∧
      oddPlacement.ReadBack showOdd.trace.calls ∧
      ∃ word, .write (.layerCfg .heo 2) word ∈ showOdd.trace.calls ∧
        Field.bits 0 11 word = 149 ∧ Field.bits 16 11 word = 52 := by
  have hboard : Compositor.xult.board.validate = .ok () := by decide
  have hvalid : oddPlacement.validate = .ok () := by decide
  have hok : showOdd.ending = .ok none := rfl
  obtain ⟨hwords, -, hscaled, -, -, -, hx, hy, hregisters⟩ := placement_centred hboard
    (show (⟨401, 300⟩ : Size).width < 2 ^ 16 by decide) (show (⟨401, 300⟩ : Size).height < 2 ^ 16 by decide)
    2 .phaseTable
  obtain ⟨hread, hwritten⟩ := hregisters hvalid Recorder.hardware 1 Compositor.xult (Compositor.square 4)
    .immediate Compositor.started.state Compositor.started.hardware
  obtain ⟨word, hword⟩ := hwritten hok 2 (by decide)
  obtain ⟨hlow, hhigh⟩ := hread.position word hword
  exact ⟨hboard, hvalid, hok, hwords, hscaled, hx, hy, hread, word, hword, Int.ofNat_inj.1 hlow,
    Int.ofNat_inj.1 hhigh⟩

end BootLogo
