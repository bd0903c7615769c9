import BootLogo.Proofs.Compositor.Footprint
import BootLogo.Proofs.Compositor.Scan
import BootLogo.Proofs.Script.Triple

/-!
# What is left in the overlay's frame

* `sparing`: what a part of a sequence may do that leaves the frame alone. A start of the controller and the
  backlight are such parts (`init_frames`).
* `Framed`: what was written to the registers of the frame, and the frame's descriptor. A picture that is
  displayed leaves its own there, and nothing else (`display_frames`).
* `Framed.scan_eq`, `Framed.descriptor_eq`: then the registers describe the walk of that picture's frame,
  and the descriptor leads to the frame and back to itself.
-/

namespace BootLogo.Compositor

open Script

variable {σ : Type} {compositor : Compositor}

/-! ## Parts that leave the frame alone -/

/-- Nothing that belongs to the overlay's frame is written. -/
def sparing : Limits where
  event
    | .call made => ∀ register ∈ frameRegisters, made.written? register = none
    | _ => True
  change state later := later.descriptor = state.descriptor
  error _ := True

theorem layer?_of_mem_frameRegisters :
    ∀ register ∈ frameRegisters, register.layer? = some .heo := by
  decide

theorem programming_base_le_sparing (refusals : Error → Prop) :
    compositor.programming .base refusals ≤ sparing := by
  refine ⟨fun event hevent => ?_, fun _ _ hchange => hchange.2.2 rfl, fun _ _ => trivial⟩
  cases event with
  | call made =>
    cases made with
    | write target value =>
      intro register hregister
      refine if_neg ?_
      rintro rfl
      have hlayer := layer?_of_mem_frameRegisters target hregister
      rcases hevent.2 with hbase | rfl
      · exact absurd (hbase.symm.trans hlayer) (by decide)
      · exact absurd hlayer (by decide)
    | _ => exact fun _ _ => rfl
  | _ => trivial

theorem tuning_le_sparing : tuning ≤ sparing := by
  refine ⟨fun event hevent => ?_, fun _ _ hchange => hchange.2, fun _ _ => trivial⟩
  cases event with
  | call made =>
    obtain ⟨index, value, rfl⟩ := hevent
    intro register hregister
    refine if_neg ?_
    rintro rfl
    exact absurd (layer?_of_mem_frameRegisters _ hregister) nofun
  | _ => trivial

theorem powering_le_sparing : powering ≤ sparing := by
  refine ⟨fun event hevent => ?_, fun _ _ hchange => hchange, fun _ _ => trivial⟩
  cases event with
  | call made =>
    obtain ⟨signals, rfl | rfl⟩ := hevent
    · exact fun _ _ => rfl
    · exact fun _ _ => rfl
  | _ => trivial

/-! ## The frame -/

/-- What was written to the registers of the overlay's frame, and what is in the descriptor. -/
structure Framed (words : Register → Option UInt32) (descriptor : Descriptor) (moment : Moment σ) :
    Prop where
  written : ∀ register ∈ frameRegisters, lastWritten? register moment.trace.calls = words register
  described : moment.state.descriptor = descriptor

variable {machine : Machine σ} {moment later : Moment σ} {words : Register → Option UInt32}
  {descriptor : Descriptor}

theorem Framed.of_calls (h : Framed words descriptor moment) (hcalls : later.trace.calls = moment.trace.calls)
    (hdescriptor : later.state.descriptor = moment.state.descriptor) : Framed words descriptor later :=
  ⟨fun register hregister => hcalls ▸ h.written register hregister, hdescriptor.trans h.described⟩

theorem Framed.append {world : σ} {events : Trace} (h : Framed words descriptor moment)
    (hcalls : events.calls = []) :
    Framed words descriptor ({ moment with world }.append events) := by
  refine h.of_calls ?_ rfl
  rw [Moment.append, Trace.calls_append, hcalls, List.append_nil]

theorem Framed.of_step {hardware : Hardware σ} (hstep : Step hardware sparing moment later)
    (h : Framed words descriptor moment) : Framed words descriptor later := by
  cases hstep with
  | note entry => exact h.append rfl
  | @call made hcall =>
    refine ⟨fun register hregister => ?_, h.described⟩
    rw [Moment.call, Moment.append, Trace.calls_append, lastWritten?_append, h.written register hregister]
    have hnone : lastWritten? register (Trace.calls [.call made]) = none :=
      lastWritten?_eq_none_iff.2 fun call hmem => List.mem_singleton.1 hmem ▸ hcall register hregister
    rw [hnone, Option.none_or]
  | await => exact h.append rfl
  | read => exact h.append (Trace.calls_map_status _)
  | config => exact h.append rfl
  | pin =>
    refine h.append ?_
    split
    · rfl
    · rfl
  | pause => exact h.append rfl
  | store hchange => exact h.of_calls rfl hchange

theorem sparing_triple {α : Type} {s : Script α} (hs : ∀ state, s.Within sparing state) :
    Triple machine (Framed words descriptor) s (fun _ => Framed words descriptor) fun _ _ => True :=
  (Within.triple hs Framed.of_step).halting fun _ _ _ => trivial

variable {frame : Frame} {placement : Placement} {mode : CommitMode}

/-- The overlay's descriptor once a picture is shown. -/
def showing (compositor : Compositor) (frame : Frame) (descriptor : Descriptor) : Descriptor :=
  if compositor.map.usesDescriptors then Descriptor.loop compositor.descriptorAddress frame.origin
  else descriptor

/-- Where nothing was written before, a picture leaves all of its frame and nothing else. -/
theorem showLayer_frames : Triple machine (Framed (fun _ => none) descriptor)
    (compositor.showLayer frame placement mode)
    (fun _ => Framed (compositor.overlayValue? frame placement) (compositor.showing frame descriptor))
    fun _ _ => True := by
  intro moment h
  by_cases hready : compositor.Ready placement moment.state
  · have hends := (compositor.showLayer_plays frame mode hready).ends machine.hardware machine.budget
      machine.patience moment.world
    rcases hends with ⟨hending, hstate, hcalls⟩ | ⟨hwait, -⟩
    · simp only [Machine.play, hending]
      refine ⟨fun register hregister => ?_, ?_⟩
      · rw [Trace.calls_append, lastWritten?_append, hcalls, lastWritten?_showLayerCalls hregister,
          h.written register hregister, Option.or_none]
      · rw [hstate, pointed, showing]
        split
        · rfl
        · exact h.described
    · simp only [Machine.play]
      generalize Script.run _ _ _ _ _ _ = run at hwait ⊢
      cases hending : run.ending with
      | ok value =>
        rw [hending] at hwait
        exact hwait.elim
      | failed error => trivial
      | stalled => trivial
  · obtain ⟨error, hrun⟩ := compositor.showLayer_refused frame mode hready machine.hardware
      machine.budget machine.patience moment.world
    simp only [Machine.play, hrun]

theorem display_frames : Triple machine (Framed (fun _ => none) descriptor) (compositor.display frame)
    (fun _ => Framed (compositor.overlayValue? frame (compositor.place frame.size))
      (compositor.showing frame descriptor)) fun _ _ => True := by
  have hvalidate : Triple machine (Framed (fun _ => none) descriptor)
      (ofExcept ((compositor.place frame.size).validate.mapError Error.geometry))
      (fun _ => Framed (fun _ => none) descriptor) fun _ _ => True :=
    sparing_triple fun _ => Within.ofExcept fun _ _ => trivial
  refine hvalidate.bind fun _ => showLayer_frames.bind fun _ => .bind (sparing_triple fun _ => ?_)
    fun _ => .done fun _ => id
  exact (compositor.light_orderly _).within.mono tuning_le_sparing

theorem init_frames : Triple machine (Framed words descriptor) compositor.init
    (fun _ => Framed words descriptor) fun _ _ => True :=
  sparing_triple fun _ => (compositor.init_orderly (programming_base_le_sparing fun _ => True)
    tuning_le_sparing powering_le_sparing).within

/-! ## What the registers say -/

variable {earlier : List Call} {register : Register}

theorem Framed.registerAfter_eq (h : Framed words descriptor moment)
    (hregister : register ∈ frameRegisters) :
    registerAfter register (earlier ++ moment.trace.calls) =
      (words register).getD (registerAfter register earlier) := by
  rw [registerAfter_append, h.written register hregister]

theorem Framed.scan_eq (h : Framed (compositor.overlayValue? frame placement) descriptor moment)
    (hplace : placement.source = frame.size) (hfits : frame.size.fitsLayer = true)
    (hlow : -2147483648 ≤ frame.image.stride) (hhigh : frame.image.stride < 2147483648)
    (hearlier : registerAfter strideRegister earlier = 0) :
    Scan.after (earlier ++ moment.trace.calls) = frame.scan := by
  have hsize : registerAfter (.layerCfg .heo 4) (earlier ++ moment.trace.calls) =
      Field.size (.ofNat frame.image.width) (.ofNat frame.image.height) := by
    rw [h.registerAfter_eq (by decide), overlayValue?, hplace]
    rfl
  refine Scan.after_eq (h.registerAfter_eq (by decide)) hsize ?_ hfits hlow hhigh
  rw [h.registerAfter_eq (by decide), hearlier]
  change (if frame.image.stride ≠ 0 then _ else none : Option UInt32).getD 0 = _
  by_cases hzero : frame.image.stride = 0
  · rw [if_neg (not_not_intro hzero), hzero]
    rfl
  · rw [if_pos hzero]
    rfl

theorem Framed.descriptor_eq
    (h : Framed (compositor.overlayValue? frame placement) (compositor.showing frame descriptor) moment)
    (hmap : compositor.map.usesDescriptors = true) :
    let calls := earlier ++ moment.trace.calls
    moment.state.descriptor = ⟨registerAfter (.layerAddr .heo) calls, Field.dfetch,
        registerAfter (.layerNext .heo) calls⟩ ∧
      registerAfter (.layerNext .heo) calls = compositor.descriptorAddress := by
  intro calls
  have hpoint : registerAfter (.layerAddr .heo) calls = frame.origin := h.registerAfter_eq (by decide)
  have hnext : registerAfter (.layerNext .heo) calls = compositor.descriptorAddress := by
    rw [h.registerAfter_eq (by decide), overlayValue?, if_pos hmap]
    rfl
  refine ⟨?_, hnext⟩
  rw [hnext, hpoint]
  exact h.described.trans (if_pos hmap)

end BootLogo.Compositor
