import BootLogo.Proofs.Session.History
import BootLogo.Proofs.Session.Running

/-!
# Calls are made in sync

Whatever an operation does and the hardware answers, every call is made when the controller takes calls.

* `Operation.calls_in_sync`: before each call the controller was found in sync, or after each it is waited
  for until it is, as the register map asks.
-/

namespace BootLogo

open Compositor (State inSync)

variable {σ : Type}

/-- **Every call of an operation is made in sync with the controller.** If it is waited for after a call and
does not answer, nothing but that wait follows, and the operation ends with it. -/
theorem Operation.calls_in_sync (hardware : Hardware σ) (patience : Nat) (compositor : Compositor)
    (operation : Operation) (state : State) (world : σ) :
    let run := operation.perform hardware patience compositor state world
    (compositor.map.sync = .beforeWrite → run.trace.SyncedBefore) ∧
      (compositor.map.sync = .afterWrite → run.trace.SyncedAfter ∨
        run.trace.Busy ∧ (run.ending = .stalled ∨
          ∃ reads, run.ending = .failed (.timeout run.state.power ⟨inSync, reads⟩))) := by
  intro run
  let machine : Machine σ := ⟨hardware, compositor.board.poll, patience⟩
  let played := machine.play (operation.script compositor) ⟨state, world, []⟩
  have hrun : run = ⟨played.1, played.2.state, played.2.world,
      played.2.trace ++ (operation.closing played.1).map Event.note⟩ :=
    operation.perform_eq hardware patience compositor state world
  have hclosing := Trace.calls_map_note (operation.closing played.1)
  have hsteering : compositor.Proceeds (compositor.steering fun _ => True) (operation.script compositor)
      state := operation.script_steering compositor
  have hpaced := hsteering.paced
  rw [hrun]
  refine ⟨fun hsync => ?_, fun hsync => ?_⟩
  · rw [hsync] at hpaced
    exact (hpaced.syncedBefore machine .nil nofun).append hclosing
  · rw [hsync] at hpaced
    have hstands : (Moment.mk state world []).trace.Stands true := Trace.SyncedAfter.nil
    rcases hpaced.endsSynced machine hstands with hsynced | ⟨hbusy, hending⟩
    · exact .inl (hsynced.append hclosing)
    · exact .inr ⟨hbusy.append (Event.waits_note _), hending⟩

theorem calls_in_sync_starts :
    Compositor.started.trace.SyncedBefore ∧ Compositor.hastyStart.trace.SyncedAfter ∧
      Compositor.hastyStop.trace.Busy ∧
      ∃ reads, Compositor.hastyStop.ending =
        .failed (.timeout Compositor.hastyStop.state.power ⟨inSync, reads⟩) := by
  have hstarted := (Operation.calls_in_sync Recorder.hardware 1 Compositor.xult .init
    (.initial Compositor.xult.board) .fresh).1 rfl
  have hstart := (Operation.calls_in_sync Recorder.hardware 1 Compositor.hasty .init
    (.initial Compositor.hasty.board) .fresh).2 rfl
  have hstop := (Operation.calls_in_sync Recorder.hardware 1 Compositor.hasty .tearDown
    Compositor.hastyStart.state { Compositor.hastyStart.hardware with busyReads := 5 }).2 rfl
  have hended : Compositor.hastyStart.ending = .ok none := rfl
  have hexpired : Compositor.hastyStop.ending =
      .failed (.timeout Compositor.hastyStop.state.power ⟨inSync, 1⟩) := rfl
  -- the controller showed itself busy at the only reading
  have hbusy : ¬ Compositor.hastyStop.trace.SyncedAfter := by
    intro h
    obtain ⟨seen, status, rest, hlater, hholds, -⟩ := h [] (.disable Stage.scan.signal) _ rfl
    have hmem : .status status ∈ Compositor.hastyStop.trace :=
      List.mem_cons_of_mem _ (hlater ▸ List.mem_append_right seen List.mem_cons_self)
    have hmissed : (Compositor.hastyStop.trace.all fun
      | .status status => !inSync.holds status
      | _ => true) = true := rfl
    have hmiss : (!inSync.holds status) = true := List.all_eq_true.1 hmissed _ hmem
    rw [hholds] at hmiss
    cases hmiss
  refine ⟨hstarted, hstart.resolve_right fun h => ?_, (hstop.resolve_left hbusy).1, 1, hexpired⟩
  rcases h.2 with hstalled | ⟨reads, hfailed⟩
  · exact nomatch hended.symm.trans hstalled
  · exact nomatch hended.symm.trans hfailed

end BootLogo
