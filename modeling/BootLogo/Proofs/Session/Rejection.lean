import BootLogo.Hardware.Recorder
import BootLogo.Proofs.Bitmap.Checked
import BootLogo.Proofs.Session.Served

/-!
# A logo that cannot be shown

`present` checks a logo twice: the container before anything else, and the picture in it when it is put on
the overlay. The second check looks at other data than the first, but it never finds anything: a picture
has the size that its header states (`prepare_cases`). So a logo is rejected before the first step, and
a logo that is accepted is never rejected afterwards (`present_rejects_iff`).
-/

namespace BootLogo

open Compositor (State)

/-- The error is about the logo, not about the hardware or the board. -/
def Error.Rejects : Error → Prop
  | .runs _ | .bitmap _ | .geometry _ => True
  | .timeout _ _ | .config _ => False

namespace Logo

variable {σ : Type} {compositor : Compositor} {addresses : Addresses} {buffers : Buffers}

/-- A blob unpacks to a bitmap that can be interpreted and has a place on the panel. -/
def Acceptable (compositor : Compositor) (buffers : Buffers) : Prop :=
  ∃ bitmap info, (unpack buffers).result = .ok bitmap ∧ Bitmap.inspect bitmap = .ok info ∧
    (compositor.place ⟨info.layout.width, info.layout.height⟩).validate = .ok ()

theorem blob_unpack (buffers : Buffers) : (unpack buffers).buffers.blob = buffers.blob := by
  simp only [unpack]
  cases place buffers.blob with
  | blob => rfl
  | scratch => rfl

/-- A logo is rejected with its blob as it was, or its picture has a place on the panel. -/
theorem prepare_cases (compositor : Compositor) (addresses : Addresses) (buffers : Buffers) :
    let prepared := prepare compositor addresses buffers
    (∃ error, prepared.result = .error error ∧ error.Rejects ∧
        prepared.buffers.blob = buffers.blob ∧ ¬ Acceptable compositor buffers) ∨
      ∃ frame, prepared.result = .ok frame ∧
        (compositor.place frame.size).validate = .ok () ∧ Acceptable compositor buffers := by
  intro prepared
  have hblob := blob_unpack buffers
  cases hunpack : (unpack buffers).result with
  | error error =>
    have hprepared : prepared =
        ⟨.error (.runs error), (unpack buffers).buffers, (unpack buffers).log⟩ := by
      simp only [prepared, prepare, hunpack]
    rw [hprepared]
    refine .inl ⟨_, rfl, trivial, hblob, ?_⟩
    rintro ⟨bitmap, -, hbitmap, -⟩
    rw [hunpack] at hbitmap
    cases hbitmap
  | ok bitmap =>
    cases hinspect : Bitmap.inspect bitmap with
    | error error =>
      have hprepared : prepared =
          ⟨.error (.bitmap error), (unpack buffers).buffers, (unpack buffers).log ++ error.log⟩ := by
        simp only [prepared, prepare, hunpack, hinspect]
      rw [hprepared]
      refine .inl ⟨_, rfl, trivial, hblob, ?_⟩
      rintro ⟨found, info, hfound, hinfo, -⟩
      rw [hunpack] at hfound
      cases hfound
      rw [hinspect] at hinfo
      cases hinfo
    | ok info =>
      cases hplace : (compositor.place ⟨info.layout.width, info.layout.height⟩).validate with
      | error error =>
        have hprepared : prepared =
            ⟨.error (.geometry error), (unpack buffers).buffers, (unpack buffers).log⟩ := by
          simp only [prepared, prepare, hunpack, hinspect, hplace]
        rw [hprepared]
        refine .inl ⟨_, rfl, trivial, hblob, ?_⟩
        rintro ⟨found, other, hfound, hother, hvalid⟩
        rw [hunpack] at hfound
        cases hfound
        rw [hinspect] at hother
        cases hother
        rw [hplace] at hvalid
        cases hvalid
      | ok _ =>
        -- interpreting cannot fail after the check, and keeps the size
        have hinterpret : (Bitmap.interpret bitmap).result =
            .ok (info, info.image (info.fixed bitmap)) := Bitmap.interpret_eq_ok.2 ⟨hinspect, rfl⟩
        have hprepared : prepared.result =
            .ok ⟨info.image (info.fixed bitmap),
              addresses.get (place buffers.blob) + .ofNat info.start⟩ := by
          simp only [prepared, prepare, hunpack, hinspect, hplace, interpret, hinterpret]
        exact .inr ⟨_, hprepared, hplace, bitmap, info, hunpack, hinspect, hplace⟩

theorem not_rejects_of_accepted {machine : Machine σ} {moment : Moment σ} {frame : Frame}
    {error : Error} (hframe : (prepare compositor addresses buffers).result = .ok frame)
    (hplace : (compositor.place frame.size).validate = .ok ())
    (herror : (machine.play (present compositor addresses buffers).script moment).1 = .failed error) :
    ¬ error.Rejects := by
  have hsteering : compositor.Proceeds (compositor.steering fun _ => False)
      (present compositor addresses buffers).script moment.state := by
    apply present_steering addresses buffers
    · intro error hresult
      rw [hframe] at hresult
      cases hresult
    · intro other hother error hinvalid
      rw [hframe] at hother
      cases hother
      rw [hplace] at hinvalid
      cases hinvalid
  rcases hsteering.within.failed herror with (⟨mistake, rfl⟩ | hfalse) | rfl | ⟨power, expired, rfl⟩
  · exact id
  · exact hfalse.elim
  · exact id
  · exact id

end Logo

/-- **A logo is rejected exactly if it cannot be shown**, and then only log lines come of it: the hardware
and the state are as before, and so is the blob. -/
theorem present_rejects_iff {σ : Type} (hardware : Hardware σ) (patience : Nat) (compositor : Compositor)
    (addresses : Logo.Addresses) (buffers : Logo.Buffers) (state : State) (world : σ) :
    let run := (Operation.present addresses buffers).perform hardware patience compositor state world
    ((∃ error, run.ending = .failed error ∧ error.Rejects) ↔
        ¬ Logo.Acceptable compositor buffers) ∧
      ∀ error, run.ending = .failed error → error.Rejects →
        run.state = state ∧ run.hardware = world ∧ (∃ log : Log, run.trace = log.map Event.note) ∧
          (Logo.present compositor addresses buffers).buffers.blob = buffers.blob := by
  intro run
  let machine : Machine σ := ⟨hardware, compositor.board.poll, patience⟩
  let played := machine.play (Logo.present compositor addresses buffers).script ⟨state, world, []⟩
  have hrun : run = ⟨played.1.map some, played.2.state, played.2.world,
      played.2.trace ++ (Logo.closing (played.1.map some)).map Event.note⟩ :=
    Operation.perform_present hardware patience compositor addresses buffers state world
  rcases Logo.prepare_cases compositor addresses buffers with
    ⟨error, hresult, hrejects, hblob, hnot⟩ | ⟨frame, hresult, hplace, hacceptable⟩
  · have hplayed : played = (.failed error, _) := Logo.play_present_rejected hresult
    rw [hplayed] at hrun
    have hending : run.ending = .failed error := congrArg Run.ending hrun
    refine ⟨⟨fun _ => hnot, fun _ => ⟨error, hending, hrejects⟩⟩, fun _ _ _ => ?_⟩
    refine ⟨congrArg Run.state hrun, congrArg Run.hardware hrun, ?_, hblob⟩
    refine ⟨(Logo.prepare compositor addresses buffers).log ++ Logo.closing (.failed error), ?_⟩
    rw [List.map_append]
    exact congrArg Run.trace hrun
  · have hnever : ∀ error, run.ending = .failed error → ¬ error.Rejects := by
      intro error hending
      have hplayed := (congrArg Run.ending hrun).symm.trans hending
      exact Logo.not_rejects_of_accepted hresult hplace (Ending.map_eq_failed.1 hplayed)
    refine ⟨⟨fun ⟨error, hending, hrejects⟩ => absurd hrejects (hnever error hending),
      fun hnot => absurd hacceptable hnot⟩, ?_⟩
    exact fun error hending hrejects => absurd hrejects (hnever error hending)

/-- The headers of a bitmap without the pixel that they announce. -/
def pixelMissing : Bytes :=
  [0x42, 0x4D] ++ Bytes.ofWord 58 ++ Bytes.ofWord 0 ++ Bytes.ofWord 54 ++ Bytes.ofWord 40 ++
    Bytes.ofWord 1 ++ Bytes.ofWord 1 ++ [1, 0, 24, 0] ++ List.replicate 24 0

theorem present_rejects_pixelMissing :
    let run := (Operation.present ⟨0x20000, 0x30000⟩ ⟨pixelMissing, []⟩).perform Recorder.hardware 1 .eb
      (.initial Compositor.eb.board) .fresh
    run.ending = .failed (.bitmap (.geometry (.pixelsOutOfBounds 58 54))) ∧
      run.state = .initial Compositor.eb.board ∧ run.hardware = .fresh ∧
        (∃ log : Log, run.trace = log.map Event.note) ∧
          (Logo.present .eb ⟨0x20000, 0x30000⟩ ⟨pixelMissing, []⟩).buffers.blob = pixelMissing := by
  intro run
  have hending : run.ending = .failed (.bitmap (.geometry (.pixelsOutOfBounds 58 54))) := rfl
  have hrejected := present_rejects_iff Recorder.hardware 1 .eb ⟨0x20000, 0x30000⟩ ⟨pixelMissing, []⟩
    (.initial Compositor.eb.board) .fresh
  exact ⟨hending, hrejected.2 _ hending trivial⟩

end BootLogo
