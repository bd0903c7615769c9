import BootLogo.Proofs.Compositor.Footprint
import BootLogo.Session

/-!
# What operations may do

* `Operation.script_steering`: every operation is orderly, within `steering`; one that shows a logo refuses
  it only for what `prepare` finds, or for a placement that the panel does not have.
* `Logo.play_present_rejected`, `Logo.play_present_accepted`: how a logo is played, by what `prepare` finds.
* `Operation.perform_eq`: what an operation comes to is what playing its script comes to.
* `Operation.calls_served`: no operation writes a register that the controller lacks, whatever the
  hardware answers and however it ends.
-/

namespace BootLogo

open Compositor (State)
open Script

variable {σ : Type} {compositor : Compositor} {state : State} {refusals : Error → Prop}

/-- The evaluation board of the second generation, on which failures are tried out. -/
def Compositor.eb : Compositor := ⟨.sam9x75Eb, Register.sam9x7, .ratio, 0x1000⟩

/-! ## The logo -/

theorem Logo.script_present (compositor : Compositor) (addresses : Addresses) (buffers : Buffers) :
    (present compositor addresses buffers).script =
      .note (prepare compositor addresses buffers).log
        ((Script.ofExcept (prepare compositor addresses buffers).result).bind fun frame =>
          Script.state.bind fun state => if !compositor.isRunning state.power then
            compositor.init.bind fun _ => compositor.display frame else compositor.display frame) :=
  rfl

section Playing

variable {machine : Machine σ} {moment : Moment σ} {addresses : Logo.Addresses} {buffers : Logo.Buffers}

theorem Logo.play_present_rejected {error : Error}
    (h : (prepare compositor addresses buffers).result = .error error) :
    machine.play (present compositor addresses buffers).script moment = (.failed error,
      moment.append ((prepare compositor addresses buffers).log.map Event.note)) := by
  rw [script_present, Machine.play_note, h]
  exact machine.play_fail _ error

theorem Logo.play_present_accepted {frame : Frame}
    (h : (prepare compositor addresses buffers).result = .ok frame) :
    machine.play (present compositor addresses buffers).script moment =
      machine.play (if !compositor.isRunning moment.state.power then
          compositor.init.bind fun _ => compositor.display frame else compositor.display frame)
        (moment.append ((prepare compositor addresses buffers).log.map Event.note)) := by
  rw [script_present, Machine.play_note, h]
  rfl

end Playing

theorem Compositor.init_steering :
    compositor.Proceeds (compositor.steering refusals) compositor.init state := by
  have hquiet {limits : Limits} (h : limits ≤ compositor.quiet refusals) :
      limits ≤ compositor.steering refusals := Limits.trans h (compositor.quiet_le_steering refusals)
  exact compositor.init_orderly (hquiet (compositor.programming_le_quiet .base refusals))
    (hquiet (compositor.tuning_le_quiet refusals)) (compositor.powering_le_steering refusals)

theorem Logo.present_steering (addresses : Addresses) (buffers : Buffers)
    (hprepare : ∀ error, (prepare compositor addresses buffers).result = .error error → refusals error)
    (hplace : ∀ frame, (prepare compositor addresses buffers).result = .ok frame → ∀ error,
      (compositor.place frame.size).validate = .error error → refusals (.geometry error)) :
    compositor.Proceeds (compositor.steering refusals) (present compositor addresses buffers).script
      state := by
  have hdisplay (frame : Frame)
      (hframe : (prepare compositor addresses buffers).result = .ok frame) (later : State) :
      compositor.Proceeds (compositor.steering refusals) (compositor.display frame) later :=
    (compositor.display_orderly frame (hplace frame hframe)).mono (compositor.quiet_le_steering refusals)
  rw [script_present]
  apply Orderly.note
  cases hresult : (prepare compositor addresses buffers).result with
  | error error => exact .fail (.inr (hprepare error hresult))
  | ok frame =>
    change (Script.state.bind fun state => if !compositor.isRunning state.power then
      compositor.init.bind fun _ => compositor.display frame else compositor.display frame).Orderly _ _ _
    refine .bind .look fun _ _ => .cond (fun _ => ?_) fun _ => hdisplay frame hresult _
    exact .bind compositor.init_steering fun _ => hdisplay frame hresult

/-! ## Any operation -/

namespace Operation

theorem script_steering (compositor : Compositor) (operation : Operation) :
    compositor.Proceeds (compositor.steering fun _ => True) (operation.script compositor) state := by
  have hdone {s : Script Unit} {limits : Limits} (h : compositor.Proceeds limits s state)
      (hlimits : limits ≤ compositor.steering fun _ => True) :
      compositor.Proceeds (compositor.steering fun _ => True)
        (s.bind fun _ => .done (none : Option Placement)) state := .bind (h.mono hlimits) fun _ _ => .done
  have hquiet {limits : Limits} (h : limits ≤ compositor.quiet fun _ => True) :
      limits ≤ compositor.steering fun _ => True := Limits.trans h (compositor.quiet_le_steering _)
  have hprogramming (layer : Layer) := hquiet (compositor.programming_le_quiet layer fun _ => True)
  have htuning := hquiet (compositor.tuning_le_quiet fun _ => True)
  have hpowering := compositor.powering_le_steering fun _ => True
  cases operation with
  | init => exact .bind compositor.init_steering fun _ _ => .done
  | bringUp => exact hdone compositor.bringUp_orderly hpowering
  | tearDown => exact hdone compositor.tearDown_orderly hpowering
  | programTiming => exact hdone compositor.programTiming_orderly htuning
  | showBase mode => exact hdone (compositor.showBase_orderly mode) (hprogramming .base)
  | commit layer => exact hdone (compositor.commit_orderly layer) (hprogramming layer)
  | backlight level => exact hdone (compositor.setBacklight_orderly level) htuning
  | showLayer frame placement mode =>
    exact hdone (compositor.showLayer_orderly frame mode fun _ _ => trivial) (hprogramming .heo)
  | display frame =>
    exact .bind ((compositor.display_orderly frame fun _ _ => trivial).mono
      (compositor.quiet_le_steering _)) fun _ _ => .done
  | present addresses buffers =>
    exact .bind (Logo.present_steering addresses buffers (fun _ _ => trivial) fun _ _ _ _ => trivial)
      fun _ _ => .done

theorem perform_eq (hardware : Hardware σ) (patience : Nat) (compositor : Compositor)
    (operation : Operation) (state : State) (world : σ) :
    let machine : Machine σ := ⟨hardware, compositor.board.poll, patience⟩
    let played := machine.play (operation.script compositor) ⟨state, world, []⟩
    operation.perform hardware patience compositor state world =
      ⟨played.1, played.2.state, played.2.world,
        played.2.trace ++ (operation.closing played.1).map Event.note⟩ :=
  rfl

theorem perform_present (hardware : Hardware σ) (patience : Nat) (compositor : Compositor)
    (addresses : Logo.Addresses) (buffers : Logo.Buffers) (state : State) (world : σ) :
    let machine : Machine σ := ⟨hardware, compositor.board.poll, patience⟩
    let played := machine.play (Logo.present compositor addresses buffers).script ⟨state, world, []⟩
    (present addresses buffers).perform hardware patience compositor state world =
      ⟨played.1.map some, played.2.state, played.2.world,
        played.2.trace ++ (Logo.closing (played.1.map some)).map Event.note⟩ := by
  have hrun := perform_eq hardware patience compositor (present addresses buffers) state world
  simp only [script, Machine.play_map] at hrun
  exact hrun

theorem perform_init (hardware : Hardware σ) (patience : Nat) (compositor : Compositor) (state : State)
    (world : σ) :
    let machine : Machine σ := ⟨hardware, compositor.board.poll, patience⟩
    let played := machine.play compositor.init ⟨state, world, []⟩
    init.perform hardware patience compositor state world =
      ⟨played.1.map fun _ => none, played.2.state, played.2.world, played.2.trace⟩ := by
  have hrun := perform_eq hardware patience compositor init state world
  simp only [script, closing, Machine.play_map, List.map_nil, List.append_nil] at hrun
  exact hrun

theorem calls_perform (hardware : Hardware σ) (patience : Nat) (compositor : Compositor)
    (operation : Operation) (state : State) (world : σ) :
    (operation.perform hardware patience compositor state world).trace.calls =
      ((operation.script compositor).run hardware compositor.board.poll patience state
        world).trace.calls := by
  rw [perform, Trace.calls_append, Trace.calls_map_note, List.append_nil]

theorem calls_served (hardware : Hardware σ) (patience : Nat) (compositor : Compositor)
    (operation : Operation) (state : State) (world : σ) :
    ∀ call ∈ (operation.perform hardware patience compositor state world).trace.calls,
      Served compositor.map call := by
  intro call hcall
  rw [calls_perform, Trace.mem_calls] at hcall
  let machine : Machine σ := ⟨hardware, compositor.board.poll, patience⟩
  have hshows := (operation.script_steering compositor).within.happened machine ⟨state, world, []⟩
    fun event hevent => absurd hevent List.not_mem_nil
  exact (hshows (.call call) hcall).resolve_right id

end Operation

end BootLogo
