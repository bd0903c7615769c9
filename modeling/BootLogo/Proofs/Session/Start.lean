import BootLogo.Proofs.Compositor.BaseLayer
import BootLogo.Proofs.Compositor.Footprint
import BootLogo.Proofs.Script.Answers
import BootLogo.Proofs.Script.Triple
import BootLogo.Proofs.Stage

/-!
# What a start comes to

A start brings the controller up and then shows the base layer. If it ends well, both have happened, in
this order (`init_raises`). If it fails and the controller counts as running, either it has come up, or it
was not asked to and counted as running before (`Halted`).

* `Trace.Since`: what happened after the last time that something happened.
* `Raised`: the controller has come up, and what holds since.
* `sinking`: all that a start does before the last stage is asked for, and after it is up.
-/

namespace BootLogo

open Compositor (State)
open Script

variable {σ : Type}

/-- `later` is what happened after the last time that `event` happened. -/
def Trace.Since (event : Event) (trace later : Trace) : Prop :=
  event ∉ later ∧ ∃ earlier : Trace, trace = earlier ++ event :: later

theorem Trace.Since.append {event : Event} {trace later more : Trace} (h : trace.Since event later)
    (hmore : event ∉ more) : Trace.Since event (trace ++ more) (later ++ more) := by
  obtain ⟨hlater, earlier, rfl⟩ := h
  refine ⟨List.not_mem_append hlater hmore, earlier, ?_⟩
  rw [List.append_assoc, List.cons_append]

theorem Trace.Since.prepend {event : Event} {trace later : Trace} (h : trace.Since event later)
    (before : Trace) : Trace.Since event (before ++ trace) later := by
  obtain ⟨hlater, earlier, rfl⟩ := h
  exact ⟨hlater, before ++ earlier, (List.append_assoc _ _ _).symm⟩

namespace Compositor

variable {compositor : Compositor} {machine : Machine σ} {moment later : Moment σ} {stage : Stage}
  {front back : List Stage} {based : Prop} {trace more : Trace} {reached : Power}

/-- The controller is asked to show that it has come up. -/
def rises (compositor : Compositor) : Event := .await compositor.lastStage.up

/-- The controller has come up, and since then the base layer was shown, if it should have been. -/
def Raised (compositor : Compositor) (based : Prop) (trace : Trace) : Prop :=
  ∃ later, trace.Since compositor.rises later ∧ later.Met compositor.lastStage.up ∧
    (based → compositor.BaseShown later.calls)

theorem Raised.append (h : compositor.Raised based trace) (hmore : compositor.rises ∉ more) :
    compositor.Raised based (trace ++ more) := by
  obtain ⟨later, hsince, hmet, hbase⟩ := h
  refine ⟨later ++ more, hsince.append hmore, hmet.append more, fun hbased => ?_⟩
  rw [Trace.calls_append]
  exact (hbase hbased).append more.calls

theorem Raised.prepend (h : compositor.Raised based trace) (before : Trace) :
    compositor.Raised based (before ++ trace) := by
  obtain ⟨later, hsince, h⟩ := h
  exact ⟨later, hsince.prepend before, h⟩

theorem Raised.imp {less : Prop} (h : compositor.Raised based trace) (hless : less → based) :
    compositor.Raised less trace := by
  obtain ⟨later, hsince, hmet, hbase⟩ := h
  exact ⟨later, hsince, hmet, fun hneeded => hbase (hless hneeded)⟩

theorem Raised.mem (h : compositor.Raised based trace) : compositor.rises ∈ trace := by
  obtain ⟨later, ⟨-, earlier, rfl⟩, -⟩ := h
  exact List.mem_append_right _ List.mem_cons_self

/-! ## Before the controller has come up -/

/-- The controller is not asked to show that it has come up, and is not said to have. -/
def sinking (compositor : Compositor) : Limits where
  event event := event ≠ compositor.rises
  change state later :=
    compositor.isRunning later.power = true → compositor.isRunning state.power = true
  error _ := True

theorem quiet_le_sinking (refusals : Error → Prop) :
    compositor.quiet refusals ≤ compositor.sinking := by
  refine ⟨fun event hevent => ?_, fun state later hpower hrunning => ?_, fun _ _ => trivial⟩
  · rintro rfl
    have hne : compositor.lastStage.up.signals ≠ Signals.syncBusy ∧
        compositor.lastStage.up.signals ≠ Signals.attrBusy := by
      cases compositor.lastStage <;> decide
    rcases hevent with hsync | hattributes
    · exact hne.1 (congrArg Condition.signals hsync)
    · exact hne.2 (congrArg Condition.signals hattributes)
  · rwa [← show later.power = state.power from hpower]

theorem tearDown_sinking {state : State} : compositor.tearDown.Within compositor.sinking state := by
  have hsync : compositor.sinking.event (.await inSync) :=
    (compositor.quiet_le_sinking fun _ => False).1 _ (.inl rfl)
  refine .bind (.each fun stage hstage later => ?_) fun _ later =>
    ⟨fun hrunning => hrunning, trivial⟩
  have hlower : (compositor.lower stage).Within compositor.sinking later :=
    (compositor.lower_orderly hsync nofun fun hdown =>
      stage.down_ne_up compositor.lastStage (Event.await.inj hdown)).within
  refine hlower.bind fun _ later => ⟨fun hrunning => ?_, trivial⟩
  rw [List.mem_reverse] at hstage
  have hbelow := compositor.not_isRunning_powerBelow hstage
  exact absurd (hbelow ▸ hrunning) Bool.false_ne_true

/-- What such a script adds to the trace, and what it does to the power. -/
structure Sunk (compositor : Compositor) (moment later : Moment σ) : Prop where
  trace : ∃ more, later.trace = moment.trace ++ more ∧ compositor.rises ∉ more
  power : compositor.isRunning later.state.power = true →
    compositor.isRunning moment.state.power = true

theorem Sunk.of_step {hardware : Hardware σ} (h : Step hardware compositor.sinking moment later) :
    compositor.Sunk moment later := by
  have hone {event : Event} (hevent : event ≠ compositor.rises) : compositor.rises ∉ [event] :=
    fun hmem => hevent (List.mem_singleton.1 hmem).symm
  cases h with
  | note entry => exact ⟨⟨_, rfl, hone nofun⟩, id⟩
  | call hcall => exact ⟨⟨_, rfl, hone hcall⟩, id⟩
  | await hawait => exact ⟨⟨_, rfl, hone hawait⟩, id⟩
  | read => exact ⟨⟨_, rfl, hone nofun⟩, id⟩
  | config hconfig => exact ⟨⟨_, rfl, hone hconfig⟩, id⟩
  | pin hpin =>
    refine ⟨⟨_, rfl, hone ?_⟩, id⟩
    split
    · exact hpin
    · exact nofun
  | pause hpause => exact ⟨⟨_, rfl, hone hpause⟩, id⟩
  | store hchange => exact ⟨⟨[], (List.append_nil _).symm, List.not_mem_nil⟩, hchange⟩

theorem rises_not_mem_notes (entries : Log) : compositor.rises ∉ entries.map Event.note := by
  intro hmem
  obtain ⟨entry, -, hentry⟩ := List.mem_map.1 hmem
  cases hentry

theorem Sunk.notes (entries : Log) :
    compositor.Sunk moment (moment.append (entries.map Event.note)) :=
  ⟨⟨_, rfl, rises_not_mem_notes entries⟩, id⟩

theorem Sunk.refl (moment : Moment σ) : compositor.Sunk moment moment :=
  ⟨⟨[], (List.append_nil _).symm, List.not_mem_nil⟩, id⟩

theorem Sunk.trans {last : Moment σ} (h : compositor.Sunk moment later)
    (hnext : compositor.Sunk later last) : compositor.Sunk moment last := by
  obtain ⟨more, hlater, hmore⟩ := h.trace
  obtain ⟨rest, hlast, hrest⟩ := hnext.trace
  refine ⟨⟨more ++ rest, ?_, List.not_mem_append hmore hrest⟩, fun hrunning => ?_⟩
  · rw [hlast, hlater, List.append_assoc]
  · exact h.power (hnext.power hrunning)

theorem Sunk.of_play {α : Type} {s : Script α} (hs : s.Within compositor.sinking moment.state) :
    compositor.Sunk moment (machine.play s moment).2 :=
  hs.keeps (fun hstep h => h.trans (.of_step hstep)) (.refl moment)

theorem sinking_triple {α : Type} {s : Script α} {inv : Moment σ → Prop}
    (hs : ∀ state, s.Within compositor.sinking state)
    (hinv : ∀ {moment later}, inv moment → compositor.Sunk moment later → inv later) :
    Triple machine inv s (fun _ => inv) (fun _ => inv) :=
  Within.triple hs fun hstep h => hinv h (Sunk.of_step hstep)

theorem rises_not_mem_run {α : Type} {s : Script α} {state : State} {world : σ}
    (hs : s.Within compositor.sinking state) :
    compositor.rises ∉ (s.run machine.hardware machine.budget machine.patience state world).trace := by
  have hshows := hs.happened machine ⟨state, world, []⟩ fun event hevent =>
    absurd hevent List.not_mem_nil
  intro hmem
  exact (hshows _ hmem).elim (fun hne => hne rfl) id

theorem Raised.sunk (h : compositor.Raised based moment.trace) (hsunk : compositor.Sunk moment later) :
    compositor.Raised based later.trace := by
  obtain ⟨more, htrace, hmore⟩ := hsunk.trace
  rw [htrace]
  exact h.append hmore

/-- The controller has not been asked to show that it has come up, and counts as running only if it did
when the power was `reached`. -/
def Grounded (compositor : Compositor) (reached : Power) (moment : Moment σ) : Prop :=
  compositor.rises ∉ moment.trace ∧
    (compositor.isRunning moment.state.power = true → compositor.isRunning reached = true)

theorem Grounded.sunk (h : compositor.Grounded reached moment) (hsunk : compositor.Sunk moment later) :
    compositor.Grounded reached later := by
  obtain ⟨more, htrace, hmore⟩ := hsunk.trace
  refine ⟨?_, fun hrunning => h.2 (hsunk.power hrunning)⟩
  rw [htrace]
  exact List.not_mem_append h.1 hmore

/-- A start that failed: if the controller counts as running, it has come up or was running before. -/
def Halted (compositor : Compositor) (reached : Power) (moment : Moment σ) : Prop :=
  compositor.isRunning moment.state.power = true →
    compositor.Raised False moment.trace ∨ compositor.Grounded reached moment

/-! ## Coming up -/

/-- The stages in `front` have come up, the controller being off before the first. -/
def Climbing (compositor : Compositor) (reached : Power) (front : List Stage) (moment : Moment σ) :
    Prop :=
  front = compositor.stages ∧ compositor.Raised False moment.trace ∨
    front ≠ compositor.stages ∧ compositor.Grounded reached moment ∧
      (compositor.isRunning moment.state.power = true → front = [])

theorem Climbing.sunk (h : compositor.Climbing reached front moment)
    (hsunk : compositor.Sunk moment later) : compositor.Climbing reached front later := by
  rcases h with ⟨hall, hraised⟩ | ⟨hsome, hgrounded, hfront⟩
  · exact .inl ⟨hall, hraised.sunk hsunk⟩
  · exact .inr ⟨hsome, hgrounded.sunk hsunk, fun hrunning => hfront (hsunk.power hrunning)⟩

theorem Climbing.grounded (h : compositor.Climbing reached front moment)
    (hstages : compositor.stages = front ++ stage :: back) : compositor.Grounded reached moment ∧
      (compositor.isRunning moment.state.power = true → front = []) := by
  rcases h with ⟨hall, -⟩ | ⟨-, h⟩
  · rw [hall, List.self_eq_append_right] at hstages
    cases hstages
  · exact h

theorem raised_of_met {hardware : Hardware σ} {count : Nat}
    (hholds : compositor.lastStage.up.holds (hardware.status
      ((moment.append [compositor.rises]).reads hardware count).world).1 = true) :
    compositor.Raised False ((moment.append [compositor.rises]).reads hardware (count + 1)).trace := by
  refine ⟨(Wait.readings hardware.status (count + 1) moment.world).1.map Event.status,
    ⟨?_, moment.trace, ?_⟩, ?_, False.elim⟩
  · intro hmem
    obtain ⟨status, -, hstatus⟩ := List.mem_map.1 hmem
    cases hstatus
  · exact List.append_assoc _ _ _
  · refine ⟨(Wait.readings hardware.status count moment.world).1, _, [], ?_, hholds⟩
    rw [Wait.readings_succ, List.map_append]
    rfl

theorem raise_climbing (hstages : compositor.stages = front ++ stage :: back) :
    Triple machine (compositor.Climbing reached front)
      ((compositor.raise stage).bind fun _ => acknowledged stage "up" stage.reached)
      (fun _ => compositor.Climbing reached (front ++ [stage]))
      fun _ => compositor.Halted reached := by
  let asked (moment : Moment σ) : Prop :=
    stage = compositor.lastStage ∧ compositor.Raised False moment.trace ∨
      stage ≠ compositor.lastStage ∧ compositor.rises ∉ moment.trace
  have hhalted (moment : Moment σ) (h : compositor.Climbing reached front moment) :
      compositor.Halted reached moment := fun _ => .inr (h.grounded hstages).1
  have hsync : compositor.sinking.event (.await inSync) :=
    (compositor.quiet_le_sinking fun _ => False).1 _ (.inl rfl)
  have hrequest : Triple machine (compositor.Climbing reached front)
      (compositor.request (.enable stage.signal)) (fun _ => compositor.Climbing reached front)
      fun _ => compositor.Halted reached :=
    (sinking_triple (fun _ => (compositor.request_orderly hsync nofun).within) Climbing.sunk).halting
      fun _ => hhalted
  have hwait : Triple machine (compositor.Climbing reached front) (wait stage.up) (fun _ => asked)
      fun _ => compositor.Halted reached := by
    by_cases hlast : stage = compositor.lastStage
    · subst hlast
      refine .wait (fun moment count h hholds => .inl ⟨rfl, raised_of_met hholds⟩)
        fun moment count h _ _ hrunning => ?_
      -- before the last stage there were others, so the controller does not count as running
      rw [(h.grounded hstages).2 hrunning] at hstages
      exact absurd rfl (compositor.head_ne_lastStage hstages)
    · have hwithin (state : State) : (wait stage.up).Within compositor.sinking state :=
        ⟨fun hup => hlast (Stage.up_injective (Event.await.inj hup)), trivial⟩
      exact (sinking_triple hwithin Climbing.sunk).weaken (fun _ h => h)
        (fun _ _ h => .inr ⟨hlast, (h.grounded hstages).1.1⟩) fun _ => hhalted
  have hreached {moment : Moment σ} (h : asked moment) :
      compositor.Climbing reached (front ++ [stage])
        { moment with state := { moment.state with power := stage.reached } } := by
    rcases h with ⟨rfl, hraised⟩ | ⟨hlast, hnot⟩
    · refine .inl ⟨?_, hraised⟩
      rw [hstages, compositor.eq_nil_of_lastStage hstages]
    · have hnever (hrunning : compositor.isRunning stage.reached = true) : False :=
        hlast (compositor.isRunning_reached.1 hrunning)
      exact .inr ⟨fun hall => hlast (compositor.eq_lastStage hall.symm),
        ⟨hnot, fun hrunning => (hnever hrunning).elim⟩, fun hrunning => (hnever hrunning).elim⟩
  have hacknowledged : Triple machine asked (acknowledged stage "up" stage.reached)
      (fun _ => compositor.Climbing reached (front ++ [stage])) fun _ => compositor.Halted reached := by
    refine Triple.bind (Triple.modify fun moment h => hreached h) fun _ => ?_
    exact .say fun moment h => h.sunk (.notes [_])
  exact (hrequest.bind fun _ => hwait).bind fun _ => hacknowledged

theorem bringUp_raises : Triple machine (compositor.Grounded reached) compositor.bringUp
    (fun _ moment => compositor.Raised False moment.trace) fun _ => compositor.Halted reached := by
  refine (Triple.each (compositor.Climbing reached) compositor.stages fun front stage back hstages =>
    raise_climbing hstages).weaken (fun moment h => .inr ⟨?_, h, fun _ => rfl⟩)
    (fun _ moment h => ?_) fun _ _ h => h
  · intro hnil
    exact List.not_mem_nil (hnil ▸ compositor.lastStage_mem)
  · rcases h with ⟨-, hraised⟩ | ⟨hsome, -⟩
    · exact hraised
    · exact absurd rfl hsome

/-! ## Starting -/

theorem showBase_raises (mode : CommitMode) :
    Triple machine (fun moment => compositor.Raised False moment.trace) (compositor.showBase mode)
      (fun _ moment => compositor.Raised True moment.trace)
      fun _ moment => compositor.Raised False moment.trace := by
  intro moment h
  let run := (compositor.showBase mode).run machine.hardware machine.budget machine.patience
    moment.state moment.world
  have hrun : compositor.rises ∉ run.trace := rises_not_mem_run
    ((compositor.showBase_quiet mode).mono (compositor.quiet_le_sinking fun _ => False))
  have hplay : machine.play (compositor.showBase mode) moment =
      (run.ending, ⟨run.state, run.hardware, moment.trace ++ run.trace⟩) := rfl
  rw [hplay]
  cases hending : run.ending with
  | ok value =>
    have hcalls : run.trace.calls = compositor.baseCalls mode :=
      (showBase_plays.of_ok machine.hardware machine.budget machine.patience moment.world value
        hending).2.2
    obtain ⟨later, hsince, hmet, -⟩ := h
    refine ⟨later ++ run.trace, hsince.append hrun, hmet.append run.trace, fun _ => ?_⟩
    rw [Trace.calls_append, hcalls]
    exact baseShown_baseCalls.prepend later.calls
  | failed error => exact h.append hrun
  | stalled => trivial

/-- A start that ends well shows the base layer after the controller has come up. -/
theorem init_raises : Triple machine (compositor.Grounded reached) compositor.init
    (fun _ moment => compositor.Raised True moment.trace) fun _ => compositor.Halted reached := by
  have hquiet {α : Type} {s : Script α}
      (hs : ∀ state, s.Within (compositor.quiet fun _ => False) state) (state : State) :
      s.Within compositor.sinking state :=
    (hs state).mono (compositor.quiet_le_sinking _)
  have hgrounded {α : Type} {s : Script α} (hs : ∀ state, s.Within compositor.sinking state) :
      Triple machine (compositor.Grounded reached) s (fun _ => compositor.Grounded reached)
        fun _ => compositor.Halted reached :=
    (sinking_triple hs Grounded.sunk).halting fun _ _ h _ => .inr h
  have hraised {α : Type} {s : Script α} (hs : ∀ state, s.Within compositor.sinking state) :
      Triple machine (fun moment => compositor.Raised False moment.trace) s
        (fun _ moment => compositor.Raised False moment.trace) fun _ => compositor.Halted reached :=
    (sinking_triple hs Raised.sunk).halting fun _ _ h _ => .inl h
  refine .bind (hgrounded (hquiet fun _ => compositor.timingWords_quiet)) fun _ => ?_
  refine .bind (hgrounded fun _ => tearDown_sinking) fun _ => ?_
  refine .bind (hgrounded (hquiet fun _ => compositor.programTiming_quiet)) fun _ => ?_
  refine .bind bringUp_raises fun _ => ?_
  refine .bind (hraised (hquiet fun _ => compositor.setBacklight_quiet 0)) fun _ => ?_
  exact (showBase_raises _).halting fun _ _ h _ => .inl h

end Compositor

end BootLogo
