import BootLogo.Proofs.Compositor.Framed
import BootLogo.Proofs.Session.History
import BootLogo.Proofs.Session.Loading
import BootLogo.Proofs.Session.Rejection

/-!
# What the controller scans out

A logo is unpacked, brought into the layer's bit order where it lies, and described to the overlay.

* `present_frames`: a logo that is shown leaves its own frame in the registers.
* `present_scans_picture`: from there the overlay reads the rows of the bitmap.
-/

namespace BootLogo

open Bitmap (inspect)
open Compositor (State Framed)

variable {σ : Type} {compositor : Compositor}

namespace Logo

variable {addresses : Addresses} {buffers : Buffers} {frame : Frame}

theorem prepare_eq_ok (h : (prepare compositor addresses buffers).result = .ok frame) :
    ∃ bitmap info, (unpack buffers).result = .ok bitmap ∧ inspect bitmap = .ok info ∧
      (compositor.place ⟨info.layout.width, info.layout.height⟩).validate = .ok () ∧
      frame = info.frame bitmap (addresses.get (place buffers.blob)) ∧
      (prepare compositor addresses buffers).buffers =
        (unpack buffers).buffers.write (place buffers.blob) (info.fixed bitmap) := by
  rcases prepare_cases compositor addresses buffers with
    ⟨error, herror, -⟩ | ⟨_, -, -, bitmap, info, hunpack, hinfo, hplace⟩
  · rw [h] at herror
    cases herror
  · simp only [prepare, hunpack, hinfo, hplace, interpret, Bitmap.interpret, Except.ok.injEq] at h ⊢
    exact ⟨bitmap, info, rfl, hinfo, hplace, h.symm, rfl⟩

theorem Buffers.get_write (buffers : Buffers) (place : Place) (front : Bytes) :
    (buffers.write place front).get place = (buffers.get place).overwrite front := by
  cases place with
  | blob => rfl
  | scratch => rfl

theorem play_present_frames {machine : Machine σ} {moment : Moment σ} {descriptor : Descriptor}
    {placement : Placement} (h : Framed (fun _ => none) descriptor moment)
    (hok : (machine.play (present compositor addresses buffers).script moment).1 = .ok placement) :
    ∃ frame, (prepare compositor addresses buffers).result = .ok frame ∧
      Framed (compositor.overlayValue? frame (compositor.place frame.size))
        (compositor.showing frame descriptor)
        (machine.play (present compositor addresses buffers).script moment).2 := by
  cases hresult : (prepare compositor addresses buffers).result with
  | error error =>
    rw [play_present_rejected hresult] at hok
    cases hok
  | ok frame =>
    rw [play_present_accepted hresult] at hok ⊢
    have hnoted : Framed (fun _ => none) descriptor
        (moment.append ((prepare compositor addresses buffers).log.map Event.note)) :=
      h.append (Trace.calls_map_note _)
    have hshown : Triple machine (Framed (fun _ => none) descriptor)
        (if !compositor.isRunning moment.state.power then
          compositor.init.bind fun _ => compositor.display frame else compositor.display frame)
        (fun _ => Framed (compositor.overlayValue? frame (compositor.place frame.size))
          (compositor.showing frame descriptor)) fun _ _ => True :=
      .cond (fun _ => Compositor.init_frames.bind fun _ => Compositor.display_frames)
        fun _ => Compositor.display_frames
    exact ⟨frame, rfl, hshown.of_ok hnoted hok⟩

theorem present_frames {hardware : Hardware σ} {patience : Nat} {state : State} {world : σ}
    {placement : Option Placement} :
    let run := (Operation.present addresses buffers).perform hardware patience compositor state world
    run.ending = .ok placement →
      ∃ frame, (prepare compositor addresses buffers).result = .ok frame ∧
        Framed (compositor.overlayValue? frame (compositor.place frame.size))
          (compositor.showing frame state.descriptor)
          (⟨run.state, run.hardware, run.trace⟩ : Moment σ) := by
  intro run hok
  have hrun := Operation.perform_present hardware patience compositor addresses buffers state world
  obtain ⟨shown, hshown, -⟩ := Ending.map_eq_ok.1 ((congrArg Run.ending hrun).symm.trans hok)
  obtain ⟨frame, hframe, hframed⟩ := play_present_frames ⟨fun _ _ => rfl, rfl⟩ hshown
  refine ⟨frame, hframe, ?_⟩
  rw [show run = _ from hrun]
  exact hframed.append (Trace.calls_map_note _)

end Logo

/-- **A logo that is shown is scanned out as its picture.** The overlay starts where its address register
says and, after each row, adds the stride to its address. So it reads the rows of the bitmap from the
bottom up, and nothing but the bitmap's pixels. -/
theorem present_scans_picture (hardware : Hardware σ) (patience : Nat) (compositor : Compositor)
    (addresses : Logo.Addresses) (buffers : Logo.Buffers) (state : State) (world : σ)
    (earlier : List Call) {memory : Nat → UInt8} {placement : Option Placement}
    (hearlier : registerAfter Compositor.strideRegister earlier = 0) :
    let run := (Operation.present addresses buffers).perform hardware patience compositor state world
    let place := Logo.place buffers.blob
    let base := (addresses.get place).toNat
    base + (buffers.get place).length ≤ wordLimit →
    ((Logo.present compositor addresses buffers).buffers.get place).LieAt memory base →
    run.ending = .ok placement →
      let calls := earlier ++ run.trace.calls
      let scan := Scan.after calls
      ∃ bitmap info, (Logo.unpack buffers).result = .ok bitmap ∧ inspect bitmap = .ok info ∧
        registerAfter (.layerCfg .heo 1) calls = compositor.map.formats.mode info.format ∧
        (scan.width : Int) = info.header.width ∧ scan.height = info.header.height.natAbs ∧
        scan.fetch info.format memory = (List.range scan.height).map (fun index =>
          BitOrder.fix info.format (info.pictureRow bitmap index)) ∧
        (∀ row ∈ scan.addresses info.format, ∀ address ∈ row,
          (base + info.start : Nat) ≤ address ∧ address < (base + info.stop : Nat)) ∧
        (compositor.map.usesDescriptors = true →
          run.state.descriptor = ⟨registerAfter (.layerAddr .heo) calls, Field.dfetch,
            registerAfter (.layerNext .heo) calls⟩ ∧
          registerAfter (.layerNext .heo) calls = compositor.descriptorAddress) := by
  intro run place base hlimit hmemory hok calls scan
  obtain ⟨frame, hframe, hframed⟩ := Logo.present_frames hok
  obtain ⟨bitmap, info, hunpack, hinfo, hplace, rfl, hbuffers⟩ := Logo.prepare_eq_ok hframe
  -- the bitmap is at the front of its place, and so are its bytes in the layer's bit order
  obtain ⟨⟨rest, hrest⟩, hlength⟩ := Logo.unpack_eq_ok hunpack
  have hbitmap : (addresses.get place).toNat + bitmap.length ≤ wordLimit := by
    rw [← hlength, hrest, List.length_append] at hlimit
    omega
  have hpixels : (info.fixed bitmap).LieAt memory (addresses.get place).toNat := by
    rw [show (Logo.present compositor addresses buffers).buffers = _ from hbuffers,
      Logo.Buffers.get_write] at hmemory
    exact hmemory.of_append
  obtain ⟨-, -, hlays, -⟩ := Bitmap.inspect_eq_ok hinfo
  obtain ⟨hfits, -⟩ := Placement.fitsLayer_of_validate hplace
  obtain ⟨-, -, hwidthLimit, -⟩ := Size.fitsLayer_iff.1 hfits
  obtain ⟨hlow, hhigh⟩ := hlays.stride_bounds hwidthLimit
  have hscan : scan = (info.frame bitmap (addresses.get place)).scan :=
    hframed.scan_eq rfl hfits hlow hhigh hearlier
  refine ⟨bitmap, info, hunpack, hinfo, hframed.registerAfter_eq (by decide), ?_, ?_, ?_, ?_,
    hframed.descriptor_eq⟩
  · rw [hscan]
    exact hlays.width_eq
  · rw [hscan]
    exact hlays.height_eq
  · rw [hscan]
    exact fetch_scan hinfo hbitmap hpixels
  · rw [hscan]
    exact fun row hrow address haddress => mem_pixels_of_mem_addresses hinfo hbitmap hrow haddress

theorem present_scans_picture_checkered :
    let run := (Operation.present ⟨0x20000, 0x30000⟩ ⟨Bitmap.checkeredDown, []⟩).perform
      Recorder.hardware 1 .xult (.initial Compositor.xult.board) .fresh
    let stored := (Logo.present .xult ⟨0x20000, 0x30000⟩ ⟨Bitmap.checkeredDown, []⟩).buffers.blob
    let memory (address : Nat) : UInt8 := stored.getD (address - 0x20000) 0
    run.ending = .ok (some (Compositor.xult.place ⟨3, 2⟩)) ∧
      Scan.after run.trace.calls = ⟨0x2003A, 3, 2, -6⟩ ∧
      (Scan.after run.trace.calls).fetch .clut4 memory = [[0x21, 0x03], [0x54, 0x06]] ∧
      run.state.descriptor = ⟨0x2003A, Field.dfetch, 0x1000⟩ := by
  intro run stored memory
  have hending : run.ending = .ok (some (Compositor.xult.place ⟨3, 2⟩)) := rfl
  have haddress : registerAfter (.layerAddr .heo) run.trace.calls = 0x2003A := rfl
  have hsize : registerAfter (.layerCfg .heo 4) run.trace.calls = 0x10002 := rfl
  have hstride : registerAfter Compositor.strideRegister run.trace.calls = .ofInt (-6) := rfl
  have hscan : Scan.after run.trace.calls = ⟨0x2003A, 3, 2, -6⟩ := by
    rw [Scan.after, haddress, hsize, hstride]
    decide
  have hmemory : stored.LieAt memory 0x20000 := by
    intro offset hoffset
    simp only [memory, Nat.add_sub_cancel_left]
    rw [List.getD_eq_getElem?_getD, List.getElem?_eq_getElem hoffset]
    rfl
  obtain ⟨bitmap, info, hunpack, hinfo, -, -, -, hfetch, -, hdescriptor⟩ :=
    present_scans_picture Recorder.hardware 1 .xult ⟨0x20000, 0x30000⟩ ⟨Bitmap.checkeredDown, []⟩
      (.initial Compositor.xult.board) .fresh [] rfl (by decide) hmemory hending
  obtain rfl : Bitmap.checkeredDown = bitmap := Except.ok.inj hunpack
  obtain rfl : Bitmap.checkeredInfo Bitmap.checkeredDown 4 (-6) = info := Except.ok.inj hinfo
  obtain ⟨hloop, hnext⟩ := hdescriptor rfl
  simp only [List.nil_append] at hfetch hloop hnext
  rw [hnext, haddress] at hloop
  refine ⟨hending, hscan, hfetch.trans ?_, hloop⟩
  rw [hscan]
  decide +kernel

end BootLogo
