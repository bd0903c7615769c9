import BootLogo.Proofs.Compositor.Course
import BootLogo.Proofs.Session.History

/-!
# The order of the stages in a session

Whatever the controller answers, bringing it up asks for its stages in order, taking it down in the reverse
order, and each stage is asked for only after the one before was acknowledged (`Operation.follows_stages`).

What is remembered then is the last stage that was acknowledged. When the controller is taken down that is the
one below, however far up the controller counted before: `Operation.tearDown_power_le_iff` says when it
counts as further up afterwards.
-/

namespace BootLogo

open Compositor (State)
open Script

variable {σ : Type} {course : Course} {compositor : Compositor} {steps passed : List Stage}

/-! ## A course as an operation -/

/-- What came of a course through `steps`, of which the first ones were `passed`. -/
structure Course.Followed (course : Course) (compositor : Compositor) (steps : List Stage)
    (before : Power) (passed : List Stage) (run : Run σ (Option Placement)) : Prop where
  isPrefix : passed <+: steps
  acknowledged : ∀ stage, course.Acknowledged compositor stage run.trace ↔ stage ∈ passed
  /-- Nothing is done to the controller but to ask for the stages, one by one. -/
  requests : run.trace.calls <+: steps.map course.request
  /-- When a stage is asked for, all before it were acknowledged. -/
  inOrder : ∀ earlier call later, run.trace = earlier ++ .call call :: later →
    ∃ front stage back, steps = front ++ stage :: back ∧ call = course.request stage ∧
      ∀ other ∈ front, course.Acknowledged compositor other earlier
  ok_iff : run.ending = .ok none ↔ ∀ stage ∈ steps, course.Acknowledged compositor stage run.trace
  power : run.state.power = course.standing before passed
  /-- A failure is a wait that was given up, the last thing that happened. -/
  failed : ∀ error, run.ending = .failed error → ∃ expired front last,
    error = .timeout run.state.power expired ∧ 0 < expired.spins ∧
      run.trace = front ++ last ∧ last.GivenUp expired

theorem Course.Followed.of_went {outcome : Option Timeout} {before : Power}
    {run : Run σ (Option Placement)} (h : course.Went compositor steps passed outcome run.trace)
    (hsteps : steps.Nodup) (hpower : run.state.power = course.standing before passed)
    (hends : Course.Concludes none run.state.power run.ending outcome) :
    course.Followed compositor steps before passed run := by
  have hpassed := h.passed_prefix
  have hall : passed = steps ↔ ∀ stage ∈ steps, stage ∈ passed := by
    refine ⟨fun heq stage hstage => heq ▸ hstage, fun hall => ?_⟩
    obtain ⟨rest, rfl⟩ := hpassed
    cases rest with
    | nil => rw [List.append_nil]
    | cons stage rest =>
      have hmem := hall stage (List.mem_append_right _ List.mem_cons_self)
      exact absurd rfl ((List.nodup_append.1 hsteps).2.2 stage hmem stage List.mem_cons_self)
  refine ⟨hpassed, fun stage => h.acknowledged_iff, h.calls_prefix, fun _ _ _ => h.requested, ?_, hpower,
    fun error herror => ?_⟩
  · rw [hends.ok_iff, h.outcome_eq_none_iff, hall]
    simp only [h.acknowledged_iff]
  · rw [herror] at hends
    cases outcome with
    | none => cases hends
    | some expired =>
      obtain ⟨front, last, htrace, hlast⟩ := h.givenUp_last
      exact ⟨expired, front, last, hends.2, hends.1, htrace, hlast⟩

theorem Course.play_finished (course : Course) (compositor : Compositor) (steps : List Stage)
    (machine : Machine σ) (moment : Moment σ) (change : State → State)
    {finish : Script (Option Placement)}
    (hfinish : ∀ later : Moment σ, machine.play finish later =
      (.ok none, { later with state := change later.state })) :
    let played := machine.play ((each (course.step compositor) steps).bind fun _ => finish) moment
    ∃ passed outcome part, course.Went compositor steps passed outcome part ∧
      played.2.trace = moment.trace ++ part ∧
      Concludes none played.2.state.power played.1 outcome ∧
      let reached := { moment.state with power := course.standing moment.state.power passed }
      played.2.state = if outcome = none then change reached else reached := by
  intro played
  obtain ⟨passed, outcome, part, hwent, htrace, hstate, hends⟩ :=
    Course.play_each course compositor machine steps moment
  have hplayed : played = _ := machine.play_bind moment (each (course.step compositor) steps) fun _ => finish
  rw [hplayed]
  refine ⟨passed, outcome, part, hwent, ?_⟩
  generalize machine.play (each (course.step compositor) steps) moment = front at htrace hstate hends
  obtain ⟨ending, later⟩ := front
  cases outcome with
  | none =>
    obtain rfl : ending = .ok () := hends
    simp only [hfinish]
    exact ⟨htrace, rfl, congrArg change hstate⟩
  | some expired =>
    cases ending with
    | ok value => exact hends.elim
    | failed error => exact ⟨htrace, hends, hstate⟩
    | stalled => exact ⟨htrace, trivial, hstate⟩

theorem Course.perform_followed (course : Course) (operation : Operation) (change : State → State)
    {finish : Script (Option Placement)} (hscript : operation.script compositor =
      (each (course.step compositor) steps).bind fun _ => finish)
    (hfinish : ∀ (machine : Machine σ) (moment : Moment σ), machine.play finish moment =
      (.ok none, { moment with state := change moment.state }))
    (hchange : ∀ state, (change state).power = state.power)
    (hclosing : ∀ ending, operation.closing ending = []) (hsteps : steps.Nodup) (hardware : Hardware σ)
    (patience : Nat) (state : State) (world : σ) :
    let run := operation.perform hardware patience compositor state world
    ∃ passed, course.Followed compositor steps state.power passed run ∧
      (run.ending = .ok none →
        run.state = change { state with power := course.standing state.power steps }) ∧
      (run.ending ≠ .ok none → run.state = { state with power := run.state.power }) := by
  intro run
  let machine : Machine σ := ⟨hardware, compositor.board.poll, patience⟩
  obtain ⟨passed, outcome, part, hwent, htrace, hends, hstate⟩ :=
    course.play_finished compositor steps machine ⟨state, world, []⟩ change (hfinish machine)
  have hrun := operation.perform_eq hardware patience compositor state world
  simp only [hclosing, hscript, List.map_nil, List.append_nil] at hrun
  generalize machine.play _ ⟨state, world, []⟩ = played at hrun htrace hends hstate
  have hending : run.ending = played.1 := congrArg Run.ending hrun
  have hafter : run.state = played.2.state := congrArg Run.state hrun
  have hpart : run.trace = part := (congrArg Run.trace hrun).trans htrace
  rw [← hending, ← hafter] at hends
  let reached : State := { state with power := course.standing state.power passed }
  have hreached : run.state = if outcome = none then change reached else reached := hafter.trans hstate
  have hpower : run.state.power = course.standing state.power passed := by
    rw [hreached]
    split
    · exact hchange _
    · rfl
  refine ⟨passed, .of_went (hpart ▸ hwent) hsteps hpower hends, fun hok => ?_, fun hnot => ?_⟩
  · have hthrough := hends.ok_iff.1 hok
    rw [hreached, if_pos hthrough, ← hwent.outcome_eq_none_iff.1 hthrough]
  · have hgivenUp : outcome ≠ none := fun hthrough => hnot (hends.ok_iff.2 hthrough)
    rw [hpower, hreached, if_neg hgivenUp]

/-! ## Up and down -/

namespace Compositor

theorem bringUp_followed (hardware : Hardware σ) (patience : Nat) (compositor : Compositor)
    (state : State) (world : σ) :
    let run := Operation.bringUp.perform hardware patience compositor state world
    ∃ passed, Course.rising.Followed compositor compositor.stages state.power passed run ∧
      (run.ending = .ok none → run.state = { state with power := compositor.runningPower }) ∧
      (run.ending ≠ .ok none → run.state = { state with power := run.state.power }) := by
  have hfollowed := Course.perform_followed .rising .bringUp id
    (by rw [Operation.script, compositor.bringUp_eq]) (fun machine moment => machine.play_done moment none)
    (fun _ => rfl) (fun _ => rfl) compositor.nodup_stages hardware patience state world
  rwa [Course.standing_rising] at hfollowed

theorem tearDown_followed (hardware : Hardware σ) (patience : Nat) (compositor : Compositor)
    (state : State) (world : σ) :
    let run := Operation.tearDown.perform hardware patience compositor state world
    ∃ passed, (Course.falling compositor).Followed compositor compositor.stages.reverse state.power
        passed run ∧
      (run.ending = .ok none → run.state = { state with power := .off, lit := false }) ∧
      (run.ending ≠ .ok none → run.state = { state with power := run.state.power }) := by
  have hfollowed := Course.perform_followed (.falling compositor) .tearDown
    (fun state => { state with lit := false })
    (by rw [Operation.script, compositor.tearDown_eq, Script.bind_assoc])
    (fun machine moment => machine.play_done { moment with state := { moment.state with lit := false } } none)
    (fun _ => rfl) (fun _ => rfl)
    ((List.reverse_perm compositor.stages).nodup_iff.2 compositor.nodup_stages) hardware patience state
    world
  rwa [Course.standing_falling] at hfollowed

end Compositor

/-- **The stages of a controller come up in order and go down in the reverse order**, whatever the hardware
answers. Each is asked for only after the one before was acknowledged; an operation that ends well has passed
all of them, and one that does not leaves the state at the last that it passed. -/
theorem Operation.follows_stages (hardware : Hardware σ) (patience : Nat) (compositor : Compositor)
    (state : State) (world : σ) :
    let raised := Operation.bringUp.perform hardware patience compositor state world
    let lowered := Operation.tearDown.perform hardware patience compositor state world
    (∃ passed, Course.rising.Followed compositor compositor.stages state.power passed raised ∧
        (raised.ending = .ok none → raised.state = { state with power := compositor.runningPower }) ∧
        (raised.ending ≠ .ok none → raised.state = { state with power := raised.state.power })) ∧
      ∃ passed, (Course.falling compositor).Followed compositor compositor.stages.reverse state.power
          passed lowered ∧
        (lowered.ending = .ok none → lowered.state = { state with power := .off, lit := false }) ∧
        (lowered.ending ≠ .ok none → lowered.state = { state with power := lowered.state.power }) := by
  exact ⟨Compositor.bringUp_followed hardware patience compositor state world,
    Compositor.tearDown_followed hardware patience compositor state world⟩

/-! ## How far up a controller counts that was taken down -/

namespace Compositor

variable {power : Power} {stage : Stage}

theorem rank_standing_le (hpassed : passed <+: compositor.stages.reverse) (hstage : stage ∈ passed) :
    ((Course.falling compositor).standing power passed).rank ≤ (compositor.powerBelow stage).rank := by
  obtain ⟨rest, hrest⟩ := hpassed
  obtain ⟨earlier, later, rfl⟩ := List.append_of_mem hstage
  have hstages : compositor.stages = (rest.reverse ++ later.reverse) ++ stage :: earlier.reverse := by
    rw [← List.reverse_reverse compositor.stages, ← hrest]
    simp
  -- the stages go down from the last one, so what stands is below each that went
  rw [Course.standing_falling_append power (List.ne_nil_of_mem hstage) hrest.symm, powerBelow_eq hstages]
  exact rank_after_le (List.prefix_append _ _) (hstages ▸ List.prefix_append _ _)

theorem lastStage_mem_passed (hpassed : passed <+: compositor.stages.reverse) (hne : passed ≠ []) :
    compositor.lastStage ∈ passed := by
  obtain ⟨front, hfront⟩ := compositor.stages_eq_append
  obtain ⟨rest, hrest⟩ := hpassed
  rw [hfront, List.reverse_concat] at hrest
  cases passed with
  | nil => exact absurd rfl hne
  | cons stage passed => exact (List.cons.inj hrest).1 ▸ List.mem_cons_self

theorem rank_powerBelow_le (hstage : stage ∈ compositor.stages) :
    (compositor.powerBelow stage).rank ≤ compositor.runningPower.rank := by
  obtain ⟨front, back, hstages⟩ := List.append_of_mem hstage
  rw [powerBelow_eq hstages]
  exact rank_after_le (hstages ▸ List.prefix_append _ _) List.prefix_rfl

end Compositor

/-- **When a controller counts as further up after it was taken down than before.** It does if something went
wrong after a stage was acknowledged, all acknowledged stages being further up than the controller counted; so
never from fully up. A time-out says the same as the state. -/
theorem Operation.tearDown_power_le_iff (hardware : Hardware σ) (patience : Nat) (compositor : Compositor)
    (state : State) (world : σ) :
    let run := Operation.tearDown.perform hardware patience compositor state world
    let down (stage : Stage) := (Course.falling compositor).Acknowledged compositor stage run.trace
    (∀ error, run.ending = .failed error → ∃ expired, error = .timeout run.state.power expired) ∧
      run.state.power.rank ≤
        max state.power.rank (compositor.powerBelow compositor.lastStage).rank ∧
      (compositor.isRunning state.power = true → run.state.power.rank ≤ state.power.rank) ∧
      (run.state.power.rank ≤ state.power.rank ↔ run.ending = .ok none ∨ (∀ stage, ¬ down stage) ∨
        ∃ stage, down stage ∧ (compositor.powerBelow stage).rank ≤ state.power.rank) := by
  intro run down
  obtain ⟨passed, hfollowed, hok, -⟩ :=
    Compositor.tearDown_followed hardware patience compositor state world
  have hpassed := hfollowed.isPrefix
  have hpower : run.state.power = (Course.falling compositor).standing state.power passed :=
    hfollowed.power
  have hdown (stage : Stage) : down stage ↔ stage ∈ passed := hfollowed.acknowledged stage
  have hbelow {stage : Stage} (hstage : stage ∈ passed) :
      run.state.power.rank ≤ (compositor.powerBelow stage).rank :=
    hpower ▸ Compositor.rank_standing_le hpassed hstage
  have hfailed (error : Error) (herror : run.ending = .failed error) :
      ∃ expired, error = .timeout run.state.power expired := by
    obtain ⟨expired, _, _, htimeout, -⟩ := hfollowed.failed error herror
    exact ⟨expired, htimeout⟩
  by_cases hnil : passed = []
  · subst hnil
    have hsame : run.state.power.rank ≤ state.power.rank := by rw [hpower]; exact Nat.le_refl _
    have hnone (stage : Stage) : ¬ down stage := fun h => List.not_mem_nil ((hdown stage).1 h)
    exact ⟨hfailed, Nat.le_trans hsame (Nat.le_max_left _ _), fun _ => hsame,
      fun _ => .inr (.inl hnone), fun _ => hsame⟩
  have hlast := Compositor.lastStage_mem_passed hpassed hnil
  refine ⟨hfailed, Nat.le_trans (hbelow hlast) (Nat.le_max_right _ _), fun hrunning => ?_, fun hle => ?_,
    fun h => ?_⟩
  · have hfull : state.power = compositor.runningPower := by
      rw [Compositor.isRunning, decide_eq_true_eq] at hrunning
      exact hrunning.2
    rw [hfull]
    exact Nat.le_trans (hbelow hlast) (Compositor.rank_powerBelow_le compositor.lastStage_mem)
  · -- the last stage that was passed is one below which the controller stands now
    have hstage := List.getLast_mem hnil
    refine .inr (.inr ⟨passed.getLast hnil, (hdown _).2 hstage, ?_⟩)
    rwa [hpower, Course.standing, List.getLast?_eq_some_getLast hnil] at hle
  · rcases h with hending | hnone | ⟨stage, hstage, hle⟩
    · rw [hok hending]
      exact Nat.zero_le _
    · exact absurd ((hdown _).2 hlast) (hnone _)
    · exact Nat.le_trans (hbelow ((hdown stage).1 hstage)) hle

/-- The evaluation board of the first generation, each wait with one reading. -/
def Compositor.impatient : Compositor :=
  { xult with board := { Board.sama5d2Xult with poll := .spins 1 } }

/-- A controller that is off, and busy for longer than it is waited for, is taken down: the first request is
acknowledged, and what is left counts as further up than ever. -/
theorem Operation.tearDown_raises_power :
    let run := Operation.tearDown.perform Recorder.hardware 1 .impatient
      (.initial Compositor.impatient.board) { Recorder.fresh with busyReads := 2 }
    run.ending = .failed (.timeout .display ⟨Compositor.inSync, 1⟩) ∧ run.state.power = .display ∧
      ¬ run.state.power.rank ≤ (State.initial Compositor.impatient.board).power.rank :=
  ⟨rfl, rfl, by decide⟩

end BootLogo
