import BootLogo.Proofs.Compositor.Opening
import BootLogo.Proofs.Hardware.Prompt
import BootLogo.Proofs.Session.Served

/-!
# A start recovers

A start takes the controller all the way down before it brings it up, so it does not matter what came before.

* `init_succeeds`: on a recorder that answers in time it ends well, from any state.
* `up_of_opened`, `timing_of_opened`, `dark_of_lit`: what the calls and the level that it leaves behind say of
  the recorder; `down_before_timing`: what they say of it on the way.
* `init_recovers`: all of that about a start.
-/

namespace BootLogo

open Compositor (State)
open Script

namespace Compositor

variable {compositor : Compositor} {words : TimingWords} {budget : Budget} {patience : Nat}
  {recorder : Recorder} {moment : Moment Recorder} {stage : Stage} {calls : List Call}

/-! ## The start ends well -/

theorem course_succeeds {course : Course} {on : Bool} {steps : List Stage}
    (hrequest : ∀ stage, course.request stage = stage.ask on)
    (hshown : ∀ stage status, stage.up.holds status = on → (course.shown stage).holds status = true) :
    (each (course.step compositor) steps).Succeeds budget patience := by
  refine .each fun stage _ => ?_
  rw [Course.step, hrequest]
  exact (Settles.ask stage on (hshown stage)).bind fun _ => Settles.modify.bind fun _ => .say

theorem init_succeeds (h : compositor.timingWords = .ok words) :
    compositor.init.Succeeds budget patience := by
  have hwords : (ofExcept (compositor.timingWords.mapError Error.config)).Succeeds budget patience := by
    rw [h]
    exact .done
  have hdown : compositor.tearDown.Succeeds budget patience := by
    have hshown (stage : Stage) (status : Signals) (hup : stage.up.holds status = false) :
        stage.down.holds status = true := by
      rw [Stage.down_holds, hup]
      rfl
    rw [compositor.tearDown_eq]
    exact (course_succeeds (fun _ => rfl) hshown).bind fun _ => .modify
  have htiming : compositor.programTiming.Succeeds budget patience :=
    .of_plays (fun _ => compositor.programTiming_orderly.within) (compositor.tuning_le_quiet _)
      fun _ => ⟨_, _, _, programTiming_plays h⟩
  have hup : compositor.bringUp.Succeeds budget patience := by
    rw [compositor.bringUp_eq]
    exact course_succeeds (fun _ => rfl) fun _ _ hup => hup
  have hdark : (compositor.setBacklight 0).Succeeds budget patience :=
    .of_quiet (fun _ => (compositor.setBacklight_dims 0).within)
      (Limits.trans dimming_le_tuning (compositor.tuning_le_quiet fun _ => False)) fun _ _ _ => id
  refine hwords.bind fun _ => hdown.bind fun _ => htiming.bind fun _ => hup.bind fun _ =>
    hdark.bind fun _ => ?_
  exact .of_plays (fun _ => (compositor.showBase_orderly _).within) (compositor.programming_le_quiet .base _)
    fun _ => ⟨_, _, _, showBase_plays⟩

/-! ## Where it leaves the controller -/

theorem up_of_opened (hstuck : recorder.stuck = Signals.empty) (h : compositor.Opened words moment)
    (hstage : stage ∈ compositor.stages) :
    stage.up.holds (Recorder.hardware.replay recorder moment.trace).status = true := by
  obtain ⟨later, hcalls, hlater⟩ := h.calls
  rw [(recorder.agrees_after moment.trace).status, hcalls, openingCalls, List.append_assoc,
    Recorder.after_append]
  -- whatever the stages were when they were asked for, nothing gave them back afterwards
  refine Recorder.up_after (Recorder.stuck_after.trans hstuck) (fun call hcall => ?_)
    (.inr (List.mem_append_left _ (List.mem_map_of_mem hstage)))
  rcases List.mem_append.1 hcall with hcall | hcall
  · obtain ⟨asked, -, rfl⟩ := List.mem_map.1 hcall
    exact .inr ⟨asked, rfl⟩
  · exact .inl (Call.quiet_of_not_starts (hlater call hcall))

/-- Before a word of the timing is written, all stages are given back and then at most such words written. -/
theorem calls_before_timing {later rest : List Call} (hlater : ∀ call ∈ later, call.Starts = false)
    {index : Nat} (hindex : index < 6) {value : UInt32}
    (hsplit : compositor.openingCalls words ++ later = calls ++ .write (.cfg index) value :: rest) :
    ∃ written, calls = compositor.stages.reverse.map (·.ask false) ++ written ∧
      ∀ call ∈ written, call.Quiet := by
  have hasks (on : Bool) (stages : List Stage) :
      .write (.cfg index) value ∉ stages.map (·.ask on) := by
    intro hmem
    obtain ⟨asked, -, heq⟩ := List.mem_map.1 hmem
    cases on <;> cases heq
  have hwrite : .write (.cfg index) value ∉ compositor.stages.map (·.ask true) ++ later := by
    refine List.not_mem_append (hasks true _) fun hmem => ?_
    have hnot : decide (index < 6) = false := hlater _ hmem
    exact of_decide_eq_false hnot hindex
  -- so it is one of the words between the two rounds of requests
  rw [openingCalls, List.append_assoc] at hsplit
  rcases append_eq_append_cons hsplit with ⟨rest, hfront, -⟩ | ⟨rest, -, hrest⟩
  · rcases append_eq_append_cons hfront with ⟨rest, hdown, -⟩ | ⟨written, hcalls, hwrites⟩
    · exact absurd (hdown ▸ List.mem_append_right _ List.mem_cons_self) (hasks false _)
    · refine ⟨written, hcalls, fun call hcall => ?_⟩
      have hmem : call ∈ configWrites words.writes := hwrites ▸ List.mem_append_left _ hcall
      obtain ⟨_, _, -, rfl⟩ := mem_configWrites.1 hmem
      trivial
  · exact absurd (hrest ▸ List.mem_append_right _ List.mem_cons_self) hwrite

theorem down_before_timing (hstuck : recorder.stuck = Signals.empty) (h : compositor.Opened words moment)
    {earlier later : Trace} {index : Nat} {value : UInt32} (hindex : index < 6)
    (hsplit : moment.trace = earlier ++ .call (.write (.cfg index) value) :: later)
    (hstage : stage ∈ compositor.stages) :
    stage.down.holds (Recorder.hardware.replay recorder earlier).status = true := by
  obtain ⟨since, hcalls, hsince⟩ := h.calls
  rw [hsplit, Trace.calls_append] at hcalls
  obtain ⟨written, hearlier, hquiet⟩ := calls_before_timing hsince hindex hcalls.symm
  have hdown : stage.up.holds (recorder.after (Trace.calls earlier)).status = false := by
    rw [hearlier]
    refine Recorder.up_after hstuck (fun call hcall => ?_)
      (.inr (List.mem_append_left _ (List.mem_map_of_mem (List.mem_reverse.2 hstage))))
    rcases List.mem_append.1 hcall with hcall | hcall
    · obtain ⟨asked, -, rfl⟩ := List.mem_map.1 hcall
      exact .inr ⟨asked, rfl⟩
    · exact .inl (hquiet call hcall)
  rw [Stage.down_holds, (recorder.agrees_after earlier).status, hdown]
  rfl

theorem timing_of_opened (hwords : compositor.timingWords = .ok words)
    (h : compositor.Opened words moment) :
    (List.range 6).map (fun index => Recorder.hardware.config (.cfg index)
      (Recorder.hardware.replay recorder moment.trace)) = words.config := by
  have hlength := length_config hwords
  refine List.ext_getElem (by simp [hlength]) fun index hindex hbound => ?_
  rw [List.getElem_map, List.getElem_range, Recorder.config_replay,
    h.lastWritten?_config hwords (hlength ▸ hbound), List.getElem?_eq_getElem hbound]
  rfl

/-- The compare value reads as zero, or the pin is low. -/
def Dark (compositor : Compositor) (recorder : Recorder) (trace : Trace) : Prop :=
  match compositor.board.backlight with
  | .pwm => Recorder.hardware.config (.cfg 6) recorder &&& Field.pwmcvalMask = 0
  | .gpio => trace.pins.getLast? = some false

theorem dark_of_lit {trace : Trace} (h : compositor.Lit 0 trace) :
    compositor.Dark (Recorder.hardware.replay recorder trace) trace := by
  unfold Lit at h
  unfold Dark
  cases hkind : compositor.board.backlight with
  | pwm =>
    rw [hkind] at h
    obtain ⟨word, hword, hlevel⟩ := h
    show Recorder.hardware.config (.cfg 6) _ &&& Field.pwmcvalMask = 0
    rw [Recorder.config_replay, hword, Option.getD_some, hlevel]
    rfl
  | gpio =>
    rw [hkind] at h
    exact h

end Compositor

theorem Operation.perform_replays {σ : Type} (hardware : Hardware σ) (patience : Nat)
    (compositor : Compositor) (operation : Operation) (state : State) (world : σ) :
    let run := operation.perform hardware patience compositor state world
    run.hardware = hardware.replay world run.trace := by
  let machine : Machine σ := ⟨hardware, compositor.board.poll, patience⟩
  let played := machine.play (operation.script compositor) ⟨state, world, []⟩
  have hplayed : played.2.world = hardware.replay world played.2.trace :=
    (operation.script_steering compositor).within.replays rfl
  rw [operation.perform_eq]
  exact hplayed.trans (by rw [hardware.replay_append, hardware.replay_notes])

/-- What a start leaves, and how. -/
structure Recovered (compositor : Compositor) (words : TimingWords) (recorder : Recorder)
    (run : Run Recorder (Option Placement)) : Prop where
  ending : run.ending = .ok none
  running : compositor.isRunning run.state.power = true
  up : ∀ stage ∈ compositor.stages, stage.up.holds run.hardware.status = true
  timing : (List.range 6).map (fun index => Recorder.hardware.config (.cfg index) run.hardware) =
    words.config
  dark : compositor.Dark run.hardware run.trace
  base : compositor.BaseShown run.trace.calls
  /-- The trace says how the recorder got there. -/
  replays : run.hardware = Recorder.hardware.replay recorder run.trace
  /-- When a timing register is written, every stage is down. -/
  down : ∀ earlier index value later, run.trace = earlier ++ .call (.write (.cfg index) value) :: later →
    index < 6 → ∀ stage ∈ compositor.stages,
      stage.down.holds (Recorder.hardware.replay recorder earlier).status = true

/-- **A start recovers from anything**: from any state and any recorder that answers in time, it ends well and
leaves the controller up, timed, dark and with the base layer shown. An unbounded wait answers in time if the
patience outlasts the recorder. -/
theorem init_recovers {compositor : Compositor} {words : TimingWords} {recorder : Recorder} {patience : Nat}
    (hwords : compositor.timingWords = .ok words)
    (hprompt : recorder.Prompt (compositor.board.poll.reads patience)) (state : State) :
    Recovered compositor words recorder
      (Operation.init.perform Recorder.hardware patience compositor state recorder) := by
  let machine := Recorder.machine compositor.board.poll patience
  let start : Moment Recorder := ⟨state, recorder, []⟩
  let played := machine.play compositor.init start
  obtain ⟨value, hok, -⟩ := Compositor.init_succeeds hwords start hprompt
  obtain ⟨hopened, hlit, hbase⟩ := (Compositor.init_opens hwords).of_ok rfl hok
  have hreplays := Operation.init.perform_replays Recorder.hardware patience compositor state recorder
  have hperform := Operation.perform_init Recorder.hardware patience compositor state recorder
  generalize Operation.init.perform Recorder.hardware patience compositor state recorder = run
    at hreplays hperform ⊢
  have hending : run.ending = .ok none :=
    (congrArg Run.ending hperform).trans (Ending.map_eq_ok.2 ⟨value, hok, rfl⟩)
  have hpower : run.state.power = played.2.state.power := congrArg (·.state.power) hperform
  have htrace : run.trace = played.2.trace := congrArg Run.trace hperform
  constructor
  case ending => exact hending
  case running => exact hpower ▸ hopened.running
  case up =>
    intro stage hstage
    rw [hreplays, htrace]
    exact Compositor.up_of_opened hprompt.stuck hopened hstage
  case timing =>
    rw [hreplays, htrace]
    exact Compositor.timing_of_opened hwords hopened
  case dark =>
    rw [hreplays, htrace]
    exact Compositor.dark_of_lit hlit
  case base => exact htrace ▸ hbase
  case replays => exact hreplays
  case down =>
    intro earlier index value later hsplit hindex stage hstage
    exact Compositor.down_before_timing hprompt.stuck hopened hindex (htrace.symm.trans hsplit) hstage

/-- The evaluation board of the second generation, each wait with four readings. -/
def Compositor.patient : Compositor := { eb with board := { Board.sam9x75Eb with poll := .spins 4 } }

/-- A controller that was left half way up, and is busy. -/
def Recorder.halfway : Recorder where
  past := [.enable Signals.sync, .enable Signals.clock]
  status := (Signals.clock.union Signals.sync).union Signals.scan
  stuck := Signals.empty
  busyReads := 3
  busyLeft := 2
  reads := 5
  jamFrom := none
  jamBits := Signals.syncBusy
  pinRefuses := false

theorem init_recovers_halfway : ∃ words, Compositor.patient.timingWords = .ok words ∧
    Recorder.halfway.Prompt (Compositor.patient.board.poll.reads 1) ∧
    Recovered .patient words .halfway (Operation.init.perform Recorder.hardware 1 .patient
      ⟨.display, .deferred, true, .blank⟩ .halfway) := by
  have hprompt : Recorder.halfway.Prompt (Compositor.patient.board.poll.reads 1) :=
    ⟨rfl, rfl, by decide, by decide, by decide, by decide, rfl⟩
  exact ⟨_, rfl, hprompt, init_recovers rfl hprompt _⟩

end BootLogo
