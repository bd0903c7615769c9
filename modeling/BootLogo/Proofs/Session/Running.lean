import BootLogo.Proofs.Hardware.Requests
import BootLogo.Proofs.Script.Triple
import BootLogo.Proofs.Session.Served

/-!
# Whether a controller that counts as running runs

`isRunning` looks at what is remembered, not at the controller. `isRunning_sound` compares the two after
any operations on a recorder, successful or not: if a controller counts as running, all its stages are up,
with one exception. A controller that is waited for after each request (`afterWrite`) can be told to take
its last stage down and not be heard of again: then it is down, or may come down, and counts as running.

The argument is one invariant, `Trusted`. Quiet scripts keep it since they touch neither side
(`Alike.of_step`). Between the request for a stage and its acknowledgement it is weaker:

* while the controller goes down, the stage that was just given back may be down, but a wait that expires
  has seen it up, unless it was the wait to be in sync again;
* while it comes up, the stages so far are up, and it counts as running only before the first request is
  acknowledged and after the last.
-/

namespace BootLogo

open Compositor (State)
open Script

/-- What is remembered, and the controller, after any operations that have ended. In between signals get
stuck or free, and the controller and the pin change how they answer. -/
inductive Attended (compositor : Compositor) : State → Recorder → Prop
  | start {recorder : Recorder} (hjam : recorder.jamFrom = none) :
    Attended compositor (.initial compositor.board) recorder
  | adjust {state : State} {recorder : Recorder} (earlier : Attended compositor state recorder)
    (stuck : Signals) (busyReads : Nat) (pinRefuses : Bool) :
    Attended compositor state { recorder with stuck, busyReads, pinRefuses }
  | operate {state : State} {recorder : Recorder} (earlier : Attended compositor state recorder)
    (patience : Nat) (operation : Operation)
    (hended : (operation.perform Recorder.hardware patience compositor state recorder).ending ≠
      .stalled) :
    Attended compositor
      (operation.perform Recorder.hardware patience compositor state recorder).state
      (operation.perform Recorder.hardware patience compositor state recorder).hardware

namespace Compositor

variable {compositor : Compositor} {budget : Budget} {patience : Nat}
  {moment later : Moment Recorder} {stage : Stage} {front back : List Stage}

/-- The last stage was given back, on a controller that is waited for after each request. -/
structure Abandoned (compositor : Compositor) (recorder : Recorder) (stage : Stage) : Prop where
  afterWrite : compositor.map.sync = .afterWrite
  last : stage = compositor.lastStage
  givenBack : latestRequest? stage.signal recorder.past = some (.disable stage.signal)

def Kept (compositor : Compositor) (recorder : Recorder) (stage : Stage) : Prop :=
  stage.up.holds recorder.status = true ∨ compositor.Abandoned recorder stage

/-- If the controller counts as running, its stages are kept. -/
def Trusted (compositor : Compositor) (moment : Moment Recorder) : Prop :=
  moment.world.jamFrom = none ∧ (compositor.isRunning moment.state.power = true →
    ∀ stage ∈ compositor.stages, compositor.Kept moment.world stage)

/-- Played on a recorder, the script leads from `before` to `after`, and to a trusted moment if it fails. -/
abbrev Leads (compositor : Compositor) (budget : Budget) (patience : Nat) {α : Type}
    (before : Moment Recorder → Prop) (s : Script α) (after : Moment Recorder → Prop) : Prop :=
  Triple (Recorder.machine budget patience) before s (fun _ => after) fun _ => compositor.Trusted

/-! ## Quiet scripts -/

/-- The power, the status and the requests are the same. -/
structure Alike (moment later : Moment Recorder) : Prop where
  power : later.state.power = moment.state.power
  status : later.world.status = moment.world.status
  requests : ∀ signals, latestRequest? signals later.world.past =
    latestRequest? signals moment.world.past
  jam : later.world.jamFrom = moment.world.jamFrom

theorem Alike.of_step {refusals : Error → Prop}
    (h : Step Recorder.hardware (compositor.quiet refusals) moment later) : Alike moment later := by
  cases h with
  | call hcall =>
    rename_i call
    cases call with
    | write register value => exact ⟨rfl, rfl, fun _ => List.find?_cons_of_neg Bool.false_ne_true, rfl⟩
    | enable signals => exact absurd hcall.2 id
    | disable signals => exact absurd hcall.2 id
    | palette layer words => exact ⟨rfl, rfl, fun _ => List.find?_cons_of_neg Bool.false_ne_true, rfl⟩
    | taps axis table => exact ⟨rfl, rfl, fun _ => List.find?_cons_of_neg Bool.false_ne_true, rfl⟩
  | store hchange => exact ⟨hchange, rfl, fun _ => rfl, rfl⟩
  | _ => exact ⟨rfl, rfl, fun _ => rfl, rfl⟩

theorem Alike.of_wait (hjam : moment.world.jamFrom = none) (condition : Condition) (count : Nat) :
    Alike moment ((moment.append [.await condition]).reads Recorder.hardware count) := by
  obtain ⟨-, hstatus, hpast, hjamLater⟩ :=
    Recorder.readings_up .clock hjam count
  exact ⟨rfl, hstatus, fun signals => congrArg (latestRequest? signals) hpast,
    hjamLater.trans hjam.symm⟩

theorem Kept.of_alike (h : compositor.Kept moment.world stage) (halike : Alike moment later) :
    compositor.Kept later.world stage := by
  rcases h with hup | ⟨hsync, hlast, hback⟩
  · exact .inl (by rw [halike.status]; exact hup)
  · exact .inr ⟨hsync, hlast, (halike.requests _).trans hback⟩

theorem Trusted.of_alike (h : compositor.Trusted moment) (halike : Alike moment later) :
    compositor.Trusted later := by
  refine ⟨halike.jam.trans h.1, fun hrunning stage hstage => ?_⟩
  rw [halike.power] at hrunning
  exact (h.2 hrunning stage hstage).of_alike halike

theorem quiet_triple {α : Type} {s : Script α} {inv : Moment Recorder → Prop}
    (hs : ∀ state, s.Within (compositor.quiet fun _ => True) state)
    (hinv : ∀ {moment later}, inv moment → Alike moment later → inv later) :
    Triple (Recorder.machine budget patience) inv s (fun _ => inv) (fun _ => inv) :=
  Within.triple hs fun hstep h => hinv h (Alike.of_step hstep)

theorem quiet_trusted {α : Type} {s : Script α}
    (hs : ∀ state, s.Within (compositor.quiet fun _ => True) state) :
    compositor.Leads budget patience compositor.Trusted s compositor.Trusted :=
  quiet_triple hs Trusted.of_alike

theorem request_triple {call : Call} {before after : Moment Recorder → Prop}
    (hbefore : ∀ {moment later}, before moment → Alike moment later → before later)
    (hafter : ∀ {moment later}, after moment → Alike moment later → after later)
    (hcall : ∀ moment, before moment → after (moment.call Recorder.hardware call))
    (hexpired : ∀ moment, before moment → compositor.Trusted moment)
    (hlost : compositor.map.sync = .afterWrite → ∀ moment, after moment → compositor.Trusted moment) :
    compositor.Leads budget patience before (compositor.request call) after := by
  have hwait (state : State) : (wait inSync).Within (compositor.quiet fun _ => True) state :=
    ⟨.inl rfl, trivial⟩
  have hsyncBefore : compositor.Leads budget patience before compositor.syncBefore before :=
    .cond (fun _ => (quiet_triple hwait hbefore).halting fun _ => hexpired) fun _ => .done fun _ h => h
  have hsyncAfter : compositor.Leads budget patience after compositor.syncAfter after :=
    .cond (fun hsync => (quiet_triple hwait hafter).halting fun _ => hlost hsync)
      fun _ => .done fun _ h => h
  have hperform : compositor.Leads budget patience before (perform call) after :=
    .perform fun moment h => hafter (hcall moment h) ⟨rfl, rfl, fun _ => rfl, rfl⟩
  exact hsyncBefore.bind fun _ => hperform.bind fun _ => hsyncAfter

/-! ## Coming up -/

/-- The stages in `front` are up. The controller counts as running only before the first is and after the
last. -/
structure Rising (compositor : Compositor) (front : List Stage) (moment : Moment Recorder) : Prop where
  jam : moment.world.jamFrom = none
  up : ∀ stage ∈ front, stage.up.holds moment.world.status = true
  running : compositor.isRunning moment.state.power = true → front = compositor.stages ∨
    front = [] ∧ ∀ stage ∈ compositor.stages, compositor.Kept moment.world stage

theorem Rising.of_alike (h : compositor.Rising front moment) (halike : Alike moment later) :
    compositor.Rising front later := by
  refine ⟨halike.jam.trans h.jam, fun stage hstage => ?_, fun hrunning => ?_⟩
  · rw [halike.status]
    exact h.up stage hstage
  · rw [halike.power] at hrunning
    exact (h.running hrunning).imp_right fun ⟨hfront, hkept⟩ =>
      ⟨hfront, fun stage hstage => (hkept stage hstage).of_alike halike⟩

theorem Rising.trusted (h : compositor.Rising front moment) : compositor.Trusted moment := by
  refine ⟨h.jam, fun hrunning stage hstage => ?_⟩
  rcases h.running hrunning with rfl | ⟨-, hkept⟩
  · exact .inl (h.up stage hstage)
  · exact hkept stage hstage

theorem Rising.enable (h : compositor.Rising front moment)
    (hstages : compositor.stages = front ++ stage :: back) :
    compositor.Rising front (moment.call Recorder.hardware (.enable stage.signal)) := by
  refine ⟨h.jam, fun other hother => Recorder.up_of_ask stage true (.inl rfl) (h.up other hother),
    fun hrunning => ?_⟩
  rcases h.running hrunning with hall | ⟨rfl, hkept⟩
  · exact .inl hall
  · refine .inr ⟨rfl, fun other hother => ?_⟩
    rcases hkept other hother with hup | ⟨hsync, rfl, hback⟩
    · exact .inl (Recorder.up_of_ask stage true (.inl rfl) hup)
    · -- the first stage is not the one that was given back
      have hne : stage ≠ compositor.lastStage := compositor.head_ne_lastStage hstages
      exact .inr ⟨hsync, rfl, (Recorder.latestRequest?_ask true hne).trans hback⟩

theorem Rising.reached (hjam : moment.world.jamFrom = none)
    (hup : ∀ other ∈ front ++ [stage], other.up.holds moment.world.status = true)
    (hstages : compositor.stages = front ++ stage :: back) :
    compositor.Rising (front ++ [stage])
      { moment with state := { moment.state with power := stage.reached } } := by
  refine ⟨hjam, hup, fun hrunning => .inl ?_⟩
  rw [compositor.isRunning_reached] at hrunning
  subst hrunning
  have hback := compositor.eq_nil_of_lastStage hstages
  rw [hstages, hback]

theorem raise_rising (hstages : compositor.stages = front ++ stage :: back) :
    compositor.Leads budget patience (compositor.Rising front)
      ((compositor.raise stage).bind fun _ => acknowledged stage "up" stage.reached)
      (compositor.Rising (front ++ [stage])) := by
  let risen (moment : Moment Recorder) : Prop := moment.world.jamFrom = none ∧
    ∀ other ∈ front ++ [stage], other.up.holds moment.world.status = true
  have hrequest : compositor.Leads budget patience (compositor.Rising front)
      (compositor.request (.enable stage.signal)) (compositor.Rising front) :=
    request_triple Rising.of_alike Rising.of_alike (fun moment h => h.enable hstages)
      (fun moment h => h.trusted) fun _ moment h => h.trusted
  have hwait : compositor.Leads budget patience (compositor.Rising front) (wait stage.up) risen := by
    refine .wait (fun moment count h hholds => ?_) fun moment count h _ _ =>
      (h.of_alike (.of_wait h.jam stage.up count)).trusted
    have hread := Alike.of_wait h.jam stage.up count
    have hlater := Alike.of_wait h.jam stage.up (count + 1)
    have hup : stage.up.holds moment.world.status = true := by
      rw [← hread.status, ← Recorder.up_readStatus (hread.jam.trans h.jam)]
      exact hholds
    refine ⟨hlater.jam.trans h.jam, fun other hother => ?_⟩
    rw [hlater.status]
    rcases List.mem_append.1 hother with hother | hother
    · exact h.up other hother
    · rwa [List.mem_singleton.1 hother]
  have hacknowledged : compositor.Leads budget patience risen
      (acknowledged stage "up" stage.reached) (compositor.Rising (front ++ [stage])) := by
    refine Triple.bind (Triple.modify fun moment h => Rising.reached h.1 h.2 hstages) fun _ => ?_
    exact .say fun moment h => h.of_alike ⟨rfl, rfl, fun _ => rfl, rfl⟩
  exact (hrequest.bind fun _ => hwait).bind fun _ => hacknowledged

theorem bringUp_trusted :
    compositor.Leads budget patience compositor.Trusted compositor.bringUp compositor.Trusted := by
  refine (Triple.each compositor.Rising compositor.stages fun front stage back hstages =>
    raise_rising hstages).weaken (fun moment h => ?_) (fun _ _ h => h.trusted) fun _ _ h => h
  exact ⟨h.1, fun other hother => absurd hother List.not_mem_nil,
    fun hrunning => .inr ⟨rfl, h.2 hrunning⟩⟩

/-! ## Going down -/

/-- Once a stage was given back the controller does not count as running. `given` is the stage that may
be down although the last request was not acknowledged yet. -/
structure Falling (compositor : Compositor) (front : List Stage) (given : Option Stage)
    (moment : Moment Recorder) : Prop where
  jam : moment.world.jamFrom = none
  running : compositor.isRunning moment.state.power = true → front = [] ∧
    ∀ stage ∈ compositor.stages, compositor.Kept moment.world stage ∨
      compositor.map.sync = .beforeWrite ∧ given = some stage

variable {given : Option Stage}

theorem Falling.of_alike (h : compositor.Falling front given moment) (halike : Alike moment later) :
    compositor.Falling front given later := by
  refine ⟨halike.jam.trans h.jam, fun hrunning => ?_⟩
  rw [halike.power] at hrunning
  obtain ⟨hfront, hkept⟩ := h.running hrunning
  exact ⟨hfront, fun stage hstage => (hkept stage hstage).imp_left fun h => h.of_alike halike⟩

/-- The stage that was given back is up after all, or the controller has to be in sync by now. -/
theorem Falling.trusted (h : compositor.Falling front given moment)
    (hgiven : ∀ stage, compositor.map.sync = .beforeWrite → given = some stage →
      stage.up.holds moment.world.status = true) : compositor.Trusted moment := by
  refine ⟨h.jam, fun hrunning stage hstage => ?_⟩
  rcases (h.running hrunning).2 stage hstage with hkept | ⟨hsync, hstage⟩
  · exact hkept
  · exact .inl (hgiven stage hsync hstage)

theorem Falling.disable (h : compositor.Falling front none moment)
    (hstages : compositor.stages.reverse = front ++ stage :: back) :
    compositor.Falling front (some stage)
      (moment.call Recorder.hardware (.disable stage.signal)) := by
  refine ⟨h.jam, fun hrunning => ?_⟩
  obtain ⟨rfl, hkept⟩ := h.running hrunning
  refine ⟨rfl, fun other hother => ?_⟩
  by_cases hne : stage = other
  · subst hne
    cases hsync : compositor.map.sync with
    | beforeWrite => exact .inr ⟨rfl, rfl⟩
    | afterWrite =>
      have hlast : stage = compositor.lastStage := by
        rw [List.nil_append, List.reverse_eq_iff, List.reverse_cons] at hstages
        exact compositor.eq_lastStage hstages
      exact .inl (.inr ⟨hsync, hlast, Recorder.latestRequest?_disable_self⟩)
  · rcases hkept other hother with (hup | ⟨hsync, hlast, hback⟩) | ⟨-, hnone⟩
    · exact .inl (.inl (Recorder.up_of_ask stage false (.inr hne) hup))
    · exact .inl (.inr ⟨hsync, hlast, (Recorder.latestRequest?_ask false hne).trans hback⟩)
    · cases hnone

theorem lower_falling (hstages : compositor.stages.reverse = front ++ stage :: back) :
    compositor.Leads budget patience (compositor.Falling front none)
      ((compositor.lower stage).bind fun _ =>
        acknowledged stage "down" (compositor.powerBelow stage))
      (compositor.Falling (front ++ [stage]) none) := by
  have hmem : stage ∈ compositor.stages := by
    rw [← List.mem_reverse, hstages]
    exact List.mem_append_right _ List.mem_cons_self
  have hrequest : compositor.Leads budget patience (compositor.Falling front none)
      (compositor.request (.disable stage.signal)) (compositor.Falling front (some stage)) := by
    refine request_triple Falling.of_alike Falling.of_alike (fun moment h => h.disable hstages)
      (fun moment h => h.trusted ?_) fun hafter moment h => h.trusted ?_
    · intro other _ hnone
      cases hnone
    · intro other hbefore _
      rw [hafter] at hbefore
      cases hbefore
  have hwait : compositor.Leads budget patience (compositor.Falling front (some stage))
      (wait stage.down) fun moment => moment.world.jamFrom = none := by
    refine .wait (fun moment count h _ => ?_) fun moment count h hpos hmissed => ?_
    · exact (Alike.of_wait h.jam stage.down (count + 1)).jam.trans h.jam
    · have hlater := Alike.of_wait h.jam stage.down count
      refine (h.of_alike hlater).trusted fun other _ hother => ?_
      cases hother
      rw [hlater.status]
      exact Recorder.up_of_missed h.jam hpos hmissed
  have hacknowledged : compositor.Leads budget patience
      (fun moment => moment.world.jamFrom = none)
      (acknowledged stage "down" (compositor.powerBelow stage))
      (compositor.Falling (front ++ [stage]) none) := by
    have hpower {moment : Moment Recorder} (hjam : moment.world.jamFrom = none) :
        compositor.Falling (front ++ [stage]) none
          { moment with state := { moment.state with power := compositor.powerBelow stage } } := by
      refine ⟨hjam, fun hrunning => ?_⟩
      rw [compositor.not_isRunning_powerBelow hmem] at hrunning
      cases hrunning
    refine Triple.bind (Triple.modify fun moment h => hpower h) fun _ => ?_
    exact .say fun moment h => h.of_alike ⟨rfl, rfl, fun _ => rfl, rfl⟩
  exact (hrequest.bind fun _ => hwait).bind fun _ => hacknowledged

theorem tearDown_trusted :
    compositor.Leads budget patience compositor.Trusted compositor.tearDown compositor.Trusted := by
  have hstages : compositor.Leads budget patience (compositor.Falling [] none)
      (Script.each (fun stage => (compositor.lower stage).bind fun _ =>
        acknowledged stage "down" (compositor.powerBelow stage)) compositor.stages.reverse)
      (compositor.Falling compositor.stages.reverse none) :=
    .each (fun front => compositor.Falling front none) compositor.stages.reverse
      fun front stage back hstages => lower_falling hstages
  have htrusted {front : List Stage} {moment : Moment Recorder}
      (h : compositor.Falling front none moment) : compositor.Trusted moment :=
    h.trusted fun _ _ hnone => nomatch hnone
  refine Triple.bind (hstages.weaken (fun moment h => ?_) (fun _ _ => htrusted) fun _ _ h => h)
    fun _ => ?_
  · exact ⟨h.1, fun hrunning => ⟨rfl, fun stage hstage => .inl (h.2 hrunning stage hstage)⟩⟩
  · exact .modify fun moment h => h.of_alike ⟨rfl, rfl, fun _ => rfl, rfl⟩

/-! ## Operations -/

theorem init_trusted :
    compositor.Leads budget patience compositor.Trusted compositor.init compositor.Trusted := by
  refine .bind (quiet_trusted fun _ => compositor.timingWords_quiet) fun _ => ?_
  refine .bind tearDown_trusted fun _ => ?_
  refine .bind (quiet_trusted fun _ => compositor.programTiming_quiet) fun _ => ?_
  refine .bind bringUp_trusted fun _ => ?_
  refine .bind (quiet_trusted fun _ => compositor.setBacklight_quiet 0) fun _ => ?_
  exact quiet_trusted fun _ => compositor.showBase_quiet _

theorem present_trusted (addresses : Logo.Addresses) (buffers : Logo.Buffers) :
    compositor.Leads budget patience compositor.Trusted
      (Logo.present compositor addresses buffers).script compositor.Trusted := by
  have hdisplay (frame : Frame) : compositor.Leads budget patience compositor.Trusted
      (compositor.display frame) compositor.Trusted :=
    quiet_trusted fun _ => compositor.display_quiet frame fun _ _ => trivial
  rw [Logo.script_present]
  refine .note (fun moment h => h.of_alike ⟨rfl, rfl, fun _ => rfl, rfl⟩) ?_
  refine .bind (quiet_trusted fun _ => .ofExcept fun _ _ => .inr trivial) fun frame => ?_
  refine .look fun state => ?_
  refine .weaken (.cond (fun _ => ?_) fun _ => hdisplay frame) (fun moment h => h.1) (fun _ _ h => h)
    fun _ _ h => h
  exact .bind init_trusted fun _ => hdisplay frame

theorem operation_trusted (operation : Operation) :
    compositor.Leads budget patience compositor.Trusted (operation.script compositor)
      compositor.Trusted := by
  have hdone {s : Script Unit}
      (h : compositor.Leads budget patience compositor.Trusted s compositor.Trusted) :
      compositor.Leads budget patience compositor.Trusted
        (s.bind fun _ => .done (none : Option Placement)) compositor.Trusted :=
    h.bind fun _ => .done fun _ h => h
  cases operation with
  | init => exact hdone init_trusted
  | bringUp => exact hdone bringUp_trusted
  | tearDown => exact hdone tearDown_trusted
  | programTiming => exact hdone (quiet_trusted fun _ => compositor.programTiming_quiet)
  | showBase mode => exact hdone (quiet_trusted fun _ => compositor.showBase_quiet mode)
  | commit layer => exact hdone (quiet_trusted fun _ => compositor.commit_quiet layer)
  | backlight level => exact hdone (quiet_trusted fun _ => compositor.setBacklight_quiet level)
  | showLayer frame placement mode =>
    exact hdone (quiet_trusted fun _ => compositor.showLayer_quiet frame mode fun _ _ => trivial)
  | display frame =>
    exact (quiet_trusted fun _ => compositor.display_quiet frame fun _ _ => trivial).bind fun _ =>
      .done fun _ h => h
  | present addresses buffers =>
    exact (present_trusted addresses buffers).bind fun _ => .done fun _ h => h

theorem trusted_of_attended {state : State} {recorder : Recorder}
    (h : Attended compositor state recorder) : compositor.Trusted ⟨state, recorder, []⟩ := by
  induction h with
  | start hjam =>
    refine ⟨hjam, fun hrunning => ?_⟩
    have hoff := compositor.lastStage.reached_ne_off
    exact absurd (compositor.isRunning_iff.1 hrunning).symm hoff
  | adjust earlier stuck busyReads pinRefuses ih =>
    exact ih.of_alike ⟨rfl, rfl, fun _ => rfl, rfl⟩
  | operate earlier patience operation hended ih =>
    have hkept := (operation_trusted operation).of_ended ih hended
    exact hkept.of_alike ⟨rfl, rfl, fun _ => rfl, rfl⟩

/-- **A controller that counts as running runs**, unless its last stage was given back and it is waited
for only after each request. -/
theorem isRunning_sound {state : State} {recorder : Recorder}
    (h : Attended compositor state recorder) (hrunning : compositor.isRunning state.power = true) :
    ∀ stage ∈ compositor.stages, stage.up.holds recorder.status = true ∨
      compositor.map.sync = .afterWrite ∧ stage = compositor.lastStage ∧
        latestRequest? stage.signal recorder.past = some (.disable stage.signal) := by
  intro stage hstage
  exact ((trusted_of_attended h).2 hrunning stage hstage).imp_right fun habandoned =>
    ⟨habandoned.afterWrite, habandoned.last, habandoned.givenBack⟩

/-! ## A controller that is given up too early -/

/-- The evaluation board, each wait with one reading. -/
def hasty : Compositor := { eb with board := { Board.sam9x75Eb with poll := .spins 1 } }

def hastyStart : Run Recorder (Option Placement) :=
  Operation.init.perform Recorder.hardware 1 hasty (.initial hasty.board) .fresh

/-- The controller is taken down after it has become slow. -/
def hastyStop : Run Recorder (Option Placement) :=
  Operation.tearDown.perform Recorder.hardware 1 hasty hastyStart.state
    { hastyStart.hardware with busyReads := 5 }

theorem attended_hastyStart : Attended hasty hastyStart.state hastyStart.hardware :=
  .operate (.start rfl) 1 .init (nofun : Ending.ok none ≠ .stalled)

theorem isRunning_sound_hastyStart :
    hasty.isRunning hastyStart.state.power = true ∧ ∀ stage ∈ hasty.stages,
      stage.up.holds hastyStart.hardware.status = true ∨ hasty.map.sync = .afterWrite ∧
        stage = hasty.lastStage ∧ latestRequest? stage.signal hastyStart.hardware.past =
          some (.disable stage.signal) := by
  have hrunning : hasty.isRunning hastyStart.state.power = true := rfl
  exact ⟨hrunning, isRunning_sound attended_hastyStart hrunning⟩

theorem hastyStop_counts_as_running :
    Attended hasty hastyStop.state hastyStop.hardware ∧
      hasty.isRunning hastyStop.state.power = true ∧ Stage.scan ∈ hasty.stages ∧
        Stage.scan.up.holds hastyStop.hardware.status = false := by
  refine ⟨?_, rfl, by decide, rfl⟩
  exact .operate (attended_hastyStart.adjust Signals.empty 5 false) 1 .tearDown (nofun)

end Compositor

end BootLogo
