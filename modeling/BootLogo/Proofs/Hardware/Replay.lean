import BootLogo.Proofs.Compositor.Footprint
import BootLogo.Proofs.Hardware.Requests
import BootLogo.Proofs.Hardware.Written

/-!
# Hardware after a trace

* `Hardware.replay`: the hardware after all that a trace says. A run leaves it so (`Within.replays`).
* `Hardware.ReadsBack`: what registers read as depends on the calls alone.
* `Recorder.after`: a recorder after some calls. The status of a replay depends on its calls alone
  (`Recorder.replay_agrees`).
* `Recorder.up_after`: a stage stays as it was asked to be until it is asked otherwise.
-/

namespace BootLogo

variable {σ α : Type}

/-! ## Any hardware -/

/-- What an event does to the hardware. -/
def Hardware.react (hardware : Hardware σ) (world : σ) : Event → σ
  | .call call => hardware.apply call world
  | .status _ => (hardware.status world).2
  | .pin high | .pinRefused high => (hardware.drive high world).2
  | _ => world

/-- The hardware after all that a trace says. -/
def Hardware.replay (hardware : Hardware σ) (world : σ) (trace : Trace) : σ :=
  trace.foldl hardware.react world

variable {hardware : Hardware σ} {start : σ} {moment later : Moment σ}

theorem Hardware.replay_append (world : σ) (earlier later : Trace) :
    hardware.replay world (earlier ++ later) =
      hardware.replay (hardware.replay world earlier) later :=
  List.foldl_append

theorem Hardware.replay_notes (world : σ) (entries : Log) :
    hardware.replay world (entries.map Event.note) = world := by
  induction entries with
  | nil => rfl
  | cons entry entries ih => exact ih

/-- What a register reads as is said by the calls that were made, whatever else happened. -/
def Hardware.ReadsBack (hardware : Hardware σ) (world : σ)
    (registers : List Call → Register → UInt32) : Prop :=
  ∀ (trace : Trace) (register : Register),
    hardware.config register (hardware.replay world trace) = registers trace.calls register

theorem Hardware.ReadsBack.after {world : σ} {registers : List Call → Register → UInt32}
    (h : hardware.ReadsBack world registers) (trace : Trace) :
    hardware.ReadsBack (hardware.replay world trace) fun calls => registers (trace.calls ++ calls) := by
  intro more register
  rw [← Hardware.replay_append, h, Trace.calls_append]

/-- The trace says how the hardware got where it is. -/
def Moment.Accounts (hardware : Hardware σ) (start : σ) (moment : Moment σ) : Prop :=
  moment.world = hardware.replay start moment.trace

theorem Moment.Accounts.of_step {limits : Limits} (h : Step hardware limits moment later)
    (hmoment : moment.Accounts hardware start) : later.Accounts hardware start := by
  have happend {event : Event} {world : σ} (hworld : world = hardware.react moment.world event) :
      ({ moment with world }.append [event]).Accounts hardware start := by
    refine hworld.trans ?_
    rw [hmoment]
    exact (hardware.replay_append start moment.trace [event]).symm
  cases h with
  | note entry => exact happend rfl
  | call hcall => exact happend rfl
  | await hawait => exact happend rfl
  | read => exact happend rfl
  | config hconfig => exact happend rfl
  | pin hpin =>
    refine happend ?_
    split <;> rfl
  | pause hpause => exact happend rfl
  | store hchange => exact hmoment

theorem Script.Within.replays {machine : Machine σ} {limits : Limits} {s : Script α}
    (hs : s.Within limits moment.state) (h : moment.Accounts machine.hardware start) :
    (machine.play s moment).2.Accounts machine.hardware start :=
  hs.keeps (fun hstep => Moment.Accounts.of_step hstep) h

/-! ## A recorder -/

namespace Recorder

variable {recorder other : Recorder} {stage : Stage} {on : Bool} {call : Call} {calls : List Call}

/-- The recorder after some calls. -/
def after (recorder : Recorder) (calls : List Call) : Recorder :=
  calls.foldl (fun recorder call => recorder.apply call) recorder

theorem after_append (earlier later : List Call) :
    recorder.after (earlier ++ later) = (recorder.after earlier).after later :=
  List.foldl_append

/-- The two differ at most in how they answer. -/
structure Agrees (recorder other : Recorder) : Prop where
  past : recorder.past = other.past
  status : recorder.status = other.status
  stuck : recorder.stuck = other.stuck

theorem Agrees.apply (h : recorder.Agrees other) (call : Call) :
    (recorder.apply call).Agrees (other.apply call) := by
  obtain ⟨hpast, hstatus, hstuck⟩ := h
  cases call <;> constructor <;> simp [Recorder.apply, acknowledge, hpast, hstatus, hstuck]

theorem replay_agrees (trace : Trace) (h : recorder.Agrees other) :
    (Recorder.hardware.replay recorder trace).Agrees (other.after trace.calls) := by
  induction trace generalizing recorder other with
  | nil => exact h
  | cons event rest ih =>
    cases event with
    | call call => exact ih (h.apply call)
    | status signals => exact ih ⟨h.past, h.status, h.stuck⟩
    | _ => exact ih h

theorem agrees_after (recorder : Recorder) (trace : Trace) :
    (Recorder.hardware.replay recorder trace).Agrees (recorder.after trace.calls) :=
  replay_agrees trace ⟨rfl, rfl, rfl⟩

theorem calls_after : (recorder.after calls).calls = recorder.calls ++ calls := by
  induction calls generalizing recorder with
  | nil => exact (List.append_nil _).symm
  | cons call calls ih =>
    have hcalls : (recorder.apply call).calls = recorder.calls ++ [call] := by
      cases call <;> exact List.reverse_cons
    show ((recorder.apply call).after calls).calls = _
    rw [ih, hcalls, List.append_assoc]
    rfl

theorem config_replay (register : Register) (trace : Trace) :
    Recorder.hardware.config register (Recorder.hardware.replay recorder trace) =
      (lastWritten? register trace.calls).getD (registerAfter register recorder.calls) := by
  have hcalls : (Recorder.hardware.replay recorder trace).calls = recorder.calls ++ trace.calls := by
    rw [← calls_after, Recorder.calls, (agrees_after recorder trace).past]
    rfl
  rw [config_eq, hcalls, registerAfter_append]

theorem readsBack (recorder : Recorder) : Recorder.hardware.ReadsBack recorder fun calls register =>
    (lastWritten? register calls).getD (registerAfter register recorder.calls) :=
  fun trace register => config_replay register trace

theorem stuck_apply : (recorder.apply call).stuck = recorder.stuck := by cases call <;> rfl

theorem stuck_after : (recorder.after calls).stuck = recorder.stuck := by
  induction calls generalizing recorder with
  | nil => rfl
  | cons call calls ih => exact ih.trans stuck_apply

theorem status_apply (h : call.Quiet) : (recorder.apply call).status = recorder.status := by
  cases call with
  | enable signals => exact h.elim
  | disable signals => exact h.elim
  | _ => rfl

/-- **A stage is as it was asked to be**, if nothing was asked otherwise. -/
theorem up_after (hstuck : recorder.stuck = Signals.empty)
    (hcalls : ∀ call ∈ calls, call.Quiet ∨ ∃ asked : Stage, call = asked.ask on)
    (h : stage.up.holds recorder.status = on ∨ stage.ask on ∈ calls) :
    stage.up.holds (recorder.after calls).status = on := by
  induction calls generalizing recorder with
  | nil => exact h.resolve_right List.not_mem_nil
  | cons call calls ih =>
    refine ih (stuck_apply.trans hstuck) (fun other hother => hcalls other (List.mem_cons_of_mem _ hother)) ?_
    rcases hcalls call List.mem_cons_self with hquiet | ⟨asked, rfl⟩
    · rw [status_apply hquiet]
      refine h.imp_right fun hmem => (List.mem_cons.1 hmem).resolve_left fun heq => ?_
      rw [← heq] at hquiet
      cases on <;> exact hquiet
    · rw [up_ask, hstuck, Signals.test_empty]
      by_cases hsame : asked = stage
      · exact .inl (if_pos ⟨hsame, rfl⟩)
      · rw [if_neg fun hacknowledged => hsame hacknowledged.1]
        refine h.imp_right fun hmem => (List.mem_cons.1 hmem).resolve_left fun heq => hsame ?_
        cases on with
        | true => exact (Stage.signal_injective (Call.enable.inj heq)).symm
        | false => exact (Stage.signal_injective (Call.disable.inj heq)).symm

end Recorder

end BootLogo
