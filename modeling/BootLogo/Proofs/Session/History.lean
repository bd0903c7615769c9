import BootLogo.Proofs.Compositor.Overlay
import BootLogo.Proofs.Session.Served

/-!
# What earlier pictures leave behind

A `History` is any sequence of operations on one compositor, successful or not. After each the hardware
may be in any state, or be another one.

Two registers of the overlay are written for some pictures only: the stride, and the register that
switches the phase filter on. A picture that does not write them keeps what an earlier one left. All other
registers of the frame depend on the picture alone.

* `Faithful`: stride and filter are as the picture asks; `Unstained`: nothing is left that the picture
  would have to overwrite and does not. The one holds after a picture exactly if the other held before
  (`faithful_append_iff`).
* `showLayer_forgets_iff`: two histories lead to the same frame, and to the right one, exactly if both are
  unstained.
-/

namespace BootLogo

open Compositor (State)

/-- The remembered state and all calls so far, after any operations on a compositor. -/
inductive History (compositor : Compositor) : State → List Call → Prop where
  | start : History compositor (.initial compositor.board) []
  | operate {state : State} {calls : List Call} (earlier : History compositor state calls) {σ : Type}
      (hardware : Hardware σ) (patience : Nat) (operation : Operation) (world : σ) :
      History compositor (operation.perform hardware patience compositor state world).state
        (calls ++ (operation.perform hardware patience compositor state world).trace.calls)

theorem History.served {compositor : Compositor} {state : State} {calls : List Call}
    (h : History compositor state calls) : ∀ call ∈ calls, Served compositor.map call := by
  induction h with
  | start => exact fun call hcall => absurd hcall List.not_mem_nil
  | operate earlier hardware patience operation world ih =>
    intro call hcall
    rcases List.mem_append.1 hcall with hcall | hcall
    · exact ih call hcall
    · exact operation.calls_served hardware patience compositor _ world call hcall

namespace Compositor

variable {compositor : Compositor} {frame : Frame} {placement : Placement} {mode : CommitMode}

def HasPhaseFilter (compositor : Compositor) : Prop :=
  compositor.map.generation = .lcdc ∧ compositor.scaler = .phaseTable

/-- Stride and filter are as the picture asks. -/
def Faithful (compositor : Compositor) (frame : Frame) (placement : Placement) (calls : List Call) :
    Prop :=
  registerAfter strideRegister calls = .ofInt frame.image.stride ∧
    (compositor.HasPhaseFilter →
      (registerAfter scaleRegister calls &&& Field.scaleEnable ≠ 0 ↔ placement.scaling = true))

/-- Nothing is left that the picture does not overwrite and does not want. -/
def Unstained (compositor : Compositor) (frame : Frame) (placement : Placement) (calls : List Call) :
    Prop :=
  (frame.image.stride = 0 → registerAfter strideRegister calls = 0) ∧
    (compositor.HasPhaseFilter → placement.scaling = false →
      registerAfter scaleRegister calls &&& Field.scaleEnable = 0)

def SameFrame (calls others : List Call) : Prop :=
  ∀ register ∈ frameRegisters, registerAfter register calls = registerAfter register others

theorem scaleWord_enables (placement : Placement) : scaleWord placement &&& Field.scaleEnable ≠ 0 := by
  have hbit : Field.scaleEnable.toNat.testBit 31 = true := by decide
  intro hzero
  have hword : (scaleWord placement &&& Field.scaleEnable).toNat.testBit 31 = true := by
    rw [scaleWord, UInt32.toNat_and, Nat.testBit_and, UInt32.toNat_or, Nat.testBit_or, UInt32.toNat_or,
      Nat.testBit_or, hbit]
    rfl
  rw [hzero] at hword
  exact absurd hword (by decide)

theorem faithful_append_iff (mode : CommitMode) {calls : List Call} :
    compositor.Faithful frame placement (calls ++ compositor.showLayerCalls frame placement mode) ↔
      compositor.Unstained frame placement calls := by
  have hstride : registerAfter strideRegister
        (calls ++ compositor.showLayerCalls frame placement mode) =
      if frame.image.stride ≠ 0 then .ofInt frame.image.stride
      else registerAfter strideRegister calls := by
    rw [registerAfter_append, lastWritten?_showLayerCalls (by decide)]
    change (if _ then _ else none : Option UInt32).getD _ = _
    split <;> rfl
  have hscale (hfilter : compositor.HasPhaseFilter) : registerAfter scaleRegister
        (calls ++ compositor.showLayerCalls frame placement mode) =
      if placement.scaling then scaleWord placement else registerAfter scaleRegister calls := by
    rw [registerAfter_append, lastWritten?_scaleRegister hfilter.2]
    split <;> rfl
  unfold Faithful Unstained
  rw [hstride]
  refine and_congr ?_ (forall_congr' fun hfilter => ?_)
  · by_cases hzero : frame.image.stride = 0
    · have hword : UInt32.ofInt 0 = 0 := rfl
      simp only [hzero, ne_eq, not_true_eq_false, if_false, hword, true_implies]
    · simp only [hzero, ne_eq, not_false_eq_true, if_true, false_implies]
  · rw [hscale hfilter]
    cases placement.scaling with
    | true => simp [scaleWord_enables placement]
    | false => simp

theorem registerAfter_append_showLayerCalls {register : Register} (h : register ∈ frameRegisters)
    {state : State} {calls : List Call} (hcalls : History compositor state calls)
    (hstride : register ≠ strideRegister) :
    registerAfter register (calls ++ compositor.showLayerCalls frame placement mode) =
      (compositor.overlayValue? frame placement register).getD 0 := by
  rw [registerAfter_append, lastWritten?_showLayerCalls h]
  cases hvalue : compositor.overlayValue? frame placement register with
  | some value => rfl
  | none =>
    -- the picture has no value only for registers that the controller lacks
    have hlacking (value : UInt32) : ¬ Served compositor.map (.write register value) := by
      rcases overlayValue?_eq_none h hvalue with heq | ⟨heq | heq, hmap⟩
      · exact absurd heq hstride
      · rw [heq]
        exact hmap
      · rw [heq]
        exact hmap
    have hnever : lastWritten? register calls = none := by
      rw [lastWritten?_eq_none_iff]
      intro call hcall
      have hserved := hcalls.served call hcall
      cases call with
      | write target value =>
        by_cases htarget : target = register
        · subst htarget
          exact absurd hserved (hlacking value)
        · exact if_neg htarget
      | enable signals => rfl
      | disable signals => rfl
      | palette layer words => rfl
      | taps axis table => rfl
    rw [registerAfter, hnever]
    rfl

theorem calls_showLayer {σ : Type} {hardware : Hardware σ} {patience : Nat} {state : State} {world : σ}
    {result : Option Placement}
    (h : (Operation.perform hardware patience compositor (.showLayer frame placement mode) state
      world).ending = .ok result) :
    (Operation.perform hardware patience compositor (.showLayer frame placement mode) state
      world).trace.calls = compositor.showLayerCalls frame placement mode := by
  by_cases hready : compositor.Ready placement state
  · have hplays := (compositor.showLayer_plays frame mode hready).andThen
      (Script.Plays.done (none : Option Placement) _)
    rw [Operation.calls_perform, ← List.append_nil (compositor.showLayerCalls frame placement mode)]
    exact (hplays.of_ok hardware compositor.board.poll patience world result h).2.2
  · obtain ⟨error, hrun⟩ := compositor.showLayer_refused frame mode hready hardware
      compositor.board.poll patience world
    simp only [Operation.perform, Operation.script, Script.run_bind, hrun, Run.andThen] at h
    cases h

/-- **A picture is shown the same after two histories exactly if neither stains it.** -/
theorem showLayer_forgets_iff {σ τ : Type} {state other : State} {calls otherCalls : List Call}
    (hcalls : History compositor state calls) (hothers : History compositor other otherCalls)
    (hardware : Hardware σ) (otherHardware : Hardware τ) (patience otherPatience : Nat) (world : σ)
    (otherWorld : τ) {result otherResult : Option Placement} :
    let run := Operation.perform hardware patience compositor (.showLayer frame placement mode) state
      world
    let otherRun := Operation.perform otherHardware otherPatience compositor
      (.showLayer frame placement mode) other otherWorld
    run.ending = .ok result → otherRun.ending = .ok otherResult →
      (∀ register ∈ frameRegisters, register ≠ strideRegister →
        registerAfter register (calls ++ run.trace.calls) =
          registerAfter register (otherCalls ++ otherRun.trace.calls)) ∧
      (SameFrame (calls ++ run.trace.calls) (otherCalls ++ otherRun.trace.calls) ∧
          compositor.Faithful frame placement (calls ++ run.trace.calls) ∧
          compositor.Faithful frame placement (otherCalls ++ otherRun.trace.calls) ↔
        compositor.Unstained frame placement calls ∧
          compositor.Unstained frame placement otherCalls) := by
  intro run otherRun hok hotherOk
  have hrun : run.trace.calls = compositor.showLayerCalls frame placement mode := calls_showLayer hok
  have hotherRun : otherRun.trace.calls = compositor.showLayerCalls frame placement mode :=
    calls_showLayer hotherOk
  rw [hrun, hotherRun, faithful_append_iff, faithful_append_iff]
  have hframe : ∀ register ∈ frameRegisters, register ≠ strideRegister →
      registerAfter register (calls ++ compositor.showLayerCalls frame placement mode) =
        registerAfter register (otherCalls ++ compositor.showLayerCalls frame placement mode) := by
    intro register hregister hstride
    rw [registerAfter_append_showLayerCalls hregister hcalls hstride,
      registerAfter_append_showLayerCalls hregister hothers hstride]
  refine ⟨hframe, fun h => h.2, fun h => ⟨?_, h⟩⟩
  intro register hregister
  by_cases hstride : register = strideRegister
  · have hfaithful := (faithful_append_iff mode).2 h.1
    have hotherFaithful := (faithful_append_iff mode).2 h.2
    rw [hstride, hfaithful.1, hotherFaithful.1]
  · exact hframe register hregister hstride

/-! ## A stained square -/

def xult : Compositor := ⟨.sama5d2Xult, Register.sama5d2, .phaseTable, 0x1000⟩

/-- Two by two pixels, each row followed by some padding. -/
def square (padding : Nat) : Frame where
  image := {
    format := .rgb565
    pixels := List.replicate (2 * (4 + padding)) 0
    palette := []
    width := 2
    height := 2
    rowBytes := 4
    rowPadding := padding
    origin := 0
    stride := padding
    rowOrder := .bottomUp
    misaligned := false }
  address := 0x2000

def started : Run Recorder (Option Placement) :=
  Operation.init.perform Recorder.hardware 1 xult (.initial xult.board) .fresh

/-- Shows the square after an earlier run, enlarged by eighths. -/
def showSquare (padding : Nat) (scale : UInt8) (earlier : Run Recorder (Option Placement)) :
    Run Recorder (Option Placement) :=
  (Operation.showLayer (square padding)
    (.compute ⟨2, 2⟩ xult.board.panel.size scale xult.scaler) .deferred).perform
      Recorder.hardware 1 xult earlier.state earlier.hardware

theorem showLayer_forgets_square :
    SameFrame (started.trace.calls ++ (showSquare 4 0 started).trace.calls)
      (started.trace.calls ++ (showSquare 8 0 started).trace.calls ++
        (showSquare 4 0 (showSquare 8 0 started)).trace.calls) := by
  have hstarted : History xult started.state started.trace.calls :=
    .operate .start Recorder.hardware 1 .init .fresh
  have hshown : History xult (showSquare 8 0 started).state
      (started.trace.calls ++ (showSquare 8 0 started).trace.calls) :=
    .operate hstarted Recorder.hardware 1 _ started.hardware
  have hclean {calls : List Call} (h : registerAfter scaleRegister calls = 0) :
      xult.Unstained (square 4) (.compute ⟨2, 2⟩ xult.board.panel.size 0 xult.scaler) calls := by
    refine ⟨fun hzero => absurd hzero (by decide), fun _ _ => ?_⟩
    rw [h]
    rfl
  have hok : (showSquare 4 0 started).ending = .ok none := rfl
  have hotherOk : (showSquare 4 0 (showSquare 8 0 started)).ending = .ok none := rfl
  have hforgets := showLayer_forgets_iff hstarted hshown Recorder.hardware Recorder.hardware 1 1
    started.hardware (showSquare 8 0 started).hardware hok hotherOk
  exact (hforgets.2.2 ⟨hclean rfl, hclean rfl⟩).1

/-- The stride of an earlier picture stays if the next has none. -/
theorem square_keeps_stride :
    (showSquare 0 0 started).ending = .ok none ∧
      (showSquare 0 0 (showSquare 4 0 started)).ending = .ok none ∧
      registerAfter strideRegister (started.trace.calls ++ (showSquare 0 0 started).trace.calls) = 0 ∧
      registerAfter strideRegister (started.trace.calls ++ (showSquare 4 0 started).trace.calls ++
        (showSquare 0 0 (showSquare 4 0 started)).trace.calls) = 4 :=
  ⟨rfl, rfl, rfl, rfl⟩

/-- The phase filter stays on if the next picture is not scaled. -/
theorem square_keeps_filter :
    (showSquare 0 0 (showSquare 0 8 started)).ending = .ok none ∧
      registerAfter scaleRegister (started.trace.calls ++ (showSquare 0 8 started).trace.calls ++
        (showSquare 0 0 (showSquare 0 8 started)).trace.calls) &&& Field.scaleEnable ≠ 0 :=
  ⟨rfl, by decide +kernel⟩

end Compositor

end BootLogo
