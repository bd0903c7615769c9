import BootLogo.Proofs.Script.Interruption
import BootLogo.Proofs.Session.Running

/-!
# Failures cut an operation short

An operation that fails has done the front of what it does where nothing fails: no step is repeated, taken
back or moved (`Operation.failure_cuts_short`). For that the registers have to read the same after the same
calls, since some writes depend on what was read.
-/

namespace BootLogo

open Compositor (State)

variable {σ τ : Type}

theorem Operation.acts_perform (hardware : Hardware σ) (patience : Nat) (compositor : Compositor)
    (operation : Operation) (state : State) (world : σ) :
    (operation.perform hardware patience compositor state world).trace.acts =
      ((operation.script compositor).run hardware compositor.board.poll patience state
        world).trace.acts := by
  rw [perform, Trace.acts_append, Trace.acts_notes, List.append_nil]

/-- **A failure only cuts an operation short**, and what is returned is what failed first. -/
theorem Operation.failure_cuts_short {hardware : Hardware σ} {other : Hardware τ} {world : σ} {world' : τ}
    {registers : List Call → Register → UInt32} (hwhole : hardware.ReadsBack world registers)
    (hcut : other.ReadsBack world' registers) (patience patience' : Nat) (compositor : Compositor)
    (operation : Operation) (state : State) :
    let whole := operation.perform hardware patience compositor state world
    let cut := operation.perform other patience' compositor state world'
    (whole.trace.Smooth → cut.trace.calls <+: whole.trace.calls ∧ cut.trace.acts <+: whole.trace.acts ∧
      (cut.trace.Smooth → cut.ending = whole.ending ∧ cut.trace.acts = whole.trace.acts)) ∧
    (¬ cut.trace.Smooth → ∃ front last, front.Smooth ∧ last.Breaks cut.state.power cut.ending ∧
      cut.trace = front ++ last ++ (operation.closing cut.ending).map Event.note) := by
  intro whole cut
  let script := operation.script compositor
  let budget := compositor.board.poll
  have houtlasts := Script.run_outlasts hwhole hcut budget patience patience' script state
  constructor
  · intro hsmooth
    have hprefix : cut.trace.acts <+: whole.trace.acts := by
      rw [Operation.acts_perform, Operation.acts_perform]
      exact houtlasts.acts ((Trace.smooth_append_notes _).1 hsmooth)
    refine ⟨?_, hprefix, fun hsmooth' => ?_⟩
    · rw [← cut.trace.calls_acts, ← whole.trace.calls_acts]
      exact hprefix.filterMap _
    · obtain ⟨hending, -, hsame⟩ := houtlasts.same ((Trace.smooth_append_notes _).1 hsmooth)
        ((Trace.smooth_append_notes _).1 hsmooth')
      rw [Operation.acts_perform, Operation.acts_perform]
      exact ⟨hending, hsame⟩
  · intro hbroken
    rcases script.run_smooth_or_breaks other budget patience' state world' with
      hsmooth | ⟨front, last, htrace, hfront, hlast⟩
    · exact absurd ((Trace.smooth_append_notes _).2 hsmooth) hbroken
    · exact ⟨front, last, hfront, hlast, congrArg (· ++ List.map _ _) htrace⟩

namespace Compositor

/-- A start on a panel that is never reported to be on. -/
def hastyStuck : Run Recorder (Option Placement) :=
  Operation.init.perform Recorder.hardware 1 hasty (.initial hasty.board)
    { Recorder.fresh with stuck := Signals.display }

theorem hastyStuck_cut_short :
    hastyStart.trace.Smooth ∧ hastyStuck.trace.calls <+: hastyStart.trace.calls ∧
      hastyStuck.trace.calls ≠ hastyStart.trace.calls ∧
      ∃ front last, front.Smooth ∧ last.Breaks hastyStuck.state.power hastyStuck.ending ∧
        hastyStuck.trace = front ++ last ++ (Operation.init.closing hastyStuck.ending).map Event.note := by
  have hsmooth : hastyStart.trace.Smooth := by decide +kernel
  have hbroken : ¬ hastyStuck.trace.Smooth := by decide +kernel
  obtain ⟨hshort, hfirst⟩ := Operation.failure_cuts_short (Recorder.readsBack .fresh)
    (Recorder.readsBack { Recorder.fresh with stuck := Signals.display }) 1 1 hasty .init
    (.initial hasty.board)
  exact ⟨hsmooth, (hshort hsmooth).1, by decide +kernel, hfirst hbroken⟩

end Compositor

end BootLogo
