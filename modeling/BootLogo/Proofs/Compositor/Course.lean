import BootLogo.Compositor.Sequence
import BootLogo.Proofs.Script.Answers
import BootLogo.Proofs.Script.Pace
import BootLogo.Proofs.Stage

/-!
# Going through the stages

A `Course` is one of the two ways through the stages of a controller: up (`rising`) or down (`falling`). Each
stage is asked for, and the next only after the status has shown it.

* `Course.Went`: all that a course can leave in the trace, stage by stage, whatever the hardware answers
  (`Course.play_each`).
* `Went.requested`, `Went.acknowledged_iff`: what follows for the order of the calls, and for the stages that
  were acknowledged.
-/

namespace BootLogo

open Compositor (State inSync)
open Script

variable {σ : Type}

/-- A way through the stages: what asks for a stage, what the status shows then, and where the controller
stands after it. -/
structure Course where
  request : Stage → Call
  shown : Stage → Condition
  power : Stage → Power
  word : String
  shown_injective : ∀ {stage other}, shown stage = shown other → stage = other
  shown_ne_inSync : ∀ stage, shown stage ≠ inSync

namespace Course

def rising : Course where
  request stage := .enable stage.signal
  shown := Stage.up
  power := Stage.reached
  word := "up"
  shown_injective := Stage.up_injective
  shown_ne_inSync stage := by cases stage <;> decide

def falling (compositor : Compositor) : Course where
  request stage := .disable stage.signal
  shown := Stage.down
  power := compositor.powerBelow
  word := "down"
  shown_injective h := Stage.signal_injective (congrArg Condition.signals h)
  shown_ne_inSync stage := by cases stage <;> decide

variable (course : Course) (compositor : Compositor)

/-- Asks for one stage. -/
def step (stage : Stage) : Script Unit :=
  ((compositor.request (course.request stage)).bind fun _ => .wait (course.shown stage)).bind fun _ =>
    Compositor.acknowledged stage course.word (course.power stage)

/-- Where the controller stands after the last of some stages; before the first it stands as it did. -/
def standing (power : Power) (passed : List Stage) : Power :=
  (passed.getLast?.map course.power).getD power

theorem standing_cons (power : Power) (stage : Stage) (passed : List Stage) :
    course.standing power (stage :: passed) = course.standing (course.power stage) passed := by
  rw [standing, standing, List.getLast?_cons]
  cases passed.getLast? <;> rfl

variable {compositor}

theorem standing_rising (power : Power) :
    rising.standing power compositor.stages = compositor.runningPower := by
  obtain ⟨front, hfront⟩ := compositor.stages_eq_append
  rw [compositor.runningPower_eq, standing, hfront, List.getLast?_concat]
  rfl

theorem standing_falling_append {passed rest : List Stage} (power : Power) (hpassed : passed ≠ [])
    (h : compositor.stages.reverse = passed ++ rest) :
    (falling compositor).standing power passed = .after rest.reverse := by
  obtain ⟨earlier, last, rfl⟩ : ∃ earlier last, passed = earlier ++ [last] :=
    ⟨_, _, (List.dropLast_concat_getLast hpassed).symm⟩
  have hstages : compositor.stages = rest.reverse ++ last :: earlier.reverse := by
    rw [← List.reverse_reverse compositor.stages, h]
    simp
  rw [Course.standing, List.getLast?_concat]
  exact compositor.powerBelow_eq hstages

theorem standing_falling (power : Power) :
    (falling compositor).standing power compositor.stages.reverse = .off := by
  have hne : compositor.stages.reverse ≠ [] :=
    List.ne_nil_of_mem (List.mem_reverse.2 compositor.lastStage_mem)
  exact standing_falling_append power hne (List.append_nil _).symm

end Course

theorem Compositor.bringUp_eq (compositor : Compositor) :
    compositor.bringUp = each (Course.rising.step compositor) compositor.stages :=
  rfl

theorem Compositor.tearDown_eq (compositor : Compositor) :
    compositor.tearDown =
      (each ((Course.falling compositor).step compositor) compositor.stages.reverse).bind fun _ =>
        .modify fun state => { state with lit := false } :=
  rfl

/-! ## One stage -/

/-- The wait to be in sync, if there is one on this side of a call. -/
def Compositor.Synced (compositor : Compositor) (policy : Register.SyncPolicy) (trace : Trace) : Prop :=
  if compositor.map.sync = policy then trace.Answered inSync else trace = []

/-- A call was made in sync. -/
def Compositor.Requested (compositor : Compositor) (call : Call) : Trace → Prop :=
  Trace.Then (compositor.Synced .beforeWrite)
    (Trace.Then (Trace.Called call) (compositor.Synced .afterWrite))

namespace Course

variable {course : Course} {compositor : Compositor} {stage other : Stage} {expired : Timeout}
  {trace : Trace} {call : Call}

/-- A stage was asked for and acknowledged: every wait of it was answered. -/
def Acknowledges (course : Course) (compositor : Compositor) (stage : Stage) : Trace → Prop :=
  Trace.Then (compositor.Requested (course.request stage)) (Trace.Answered (course.shown stage))

/-- A stage was not acknowledged: nothing was made but its call, and the last wait was given up. -/
structure GivesUp (course : Course) (stage : Stage) (expired : Timeout) (front last : Trace) : Prop where
  calls : front.calls <+: [course.request stage]
  awaits : ∀ condition, .await condition ∈ front → condition = inSync
  unanswered : last.GivenUp expired
  condition : expired.condition = inSync ∨ expired.condition = course.shown stage

theorem synced_await_mem {policy : Register.SyncPolicy} {condition : Condition}
    (h : compositor.Synced policy trace) (hmem : .await condition ∈ trace) : condition = inSync := by
  unfold Compositor.Synced at h
  split at h
  · exact h.await_mem hmem
  · exact absurd (h ▸ hmem) List.not_mem_nil

theorem synced_calls {policy : Register.SyncPolicy} (h : compositor.Synced policy trace) :
    trace.calls = [] := by
  unfold Compositor.Synced at h
  split at h
  · exact h.calls_eq
  · rw [h]
    rfl

theorem requested_await_mem {condition : Condition} (h : compositor.Requested call trace)
    (hmem : .await condition ∈ trace) : condition = inSync := by
  obtain ⟨before, _, rfl, hbefore, made, after, rfl, hmade, hafter⟩ := h
  rcases List.mem_append.1 hmem with hmem | hmem
  · exact synced_await_mem hbefore hmem
  · rcases List.mem_append.1 hmem with hmem | hmem
    · exact absurd hmem hmade.await_not_mem
    · exact synced_await_mem hafter hmem

theorem requested_calls (h : compositor.Requested call trace) : trace.calls = [call] := by
  obtain ⟨before, _, rfl, hbefore, made, after, rfl, hmade, hafter⟩ := h
  rw [Trace.calls_append, Trace.calls_append, synced_calls hbefore, hmade.calls_eq, synced_calls hafter]
  rfl

theorem Acknowledges.calls_eq (h : course.Acknowledges compositor stage trace) :
    trace.calls = [course.request stage] := by
  obtain ⟨front, back, rfl, hfront, hback⟩ := h
  rw [Trace.calls_append, requested_calls hfront, hback.calls_eq]
  rfl

theorem Acknowledges.eq_of_await_mem (h : course.Acknowledges compositor stage trace)
    (hmem : .await (course.shown other) ∈ trace) : other = stage := by
  obtain ⟨front, back, rfl, hfront, hback⟩ := h
  rcases List.mem_append.1 hmem with hmem | hmem
  · exact absurd (requested_await_mem hfront hmem) (course.shown_ne_inSync other)
  · exact course.shown_injective (hback.await_mem hmem)

theorem GivesUp.calls_prefix {front last : Trace} (h : course.GivesUp stage expired front last) :
    Trace.calls (front ++ last) <+: [course.request stage] := by
  rw [Trace.calls_append, h.unanswered.calls_eq, List.append_nil]
  exact h.calls

theorem GivesUp.not_shown {front last earlier later : Trace} {status : Signals}
    (h : course.GivesUp stage expired front last)
    (hsplit : front ++ last = earlier ++ .await (course.shown other) :: later)
    (hmem : .status status ∈ later) : (course.shown other).holds status = false := by
  obtain ⟨missed, hlast, -, hmissed⟩ := h.unanswered
  rcases append_eq_append_cons hsplit with ⟨rest, hfront, -⟩ | ⟨rest, -, hrest⟩
  · have hin : .await (course.shown other) ∈ front := hfront ▸ List.mem_append_right _ List.mem_cons_self
    exact absurd (h.awaits _ hin) (course.shown_ne_inSync other)
  · have hcondition : course.shown other = expired.condition :=
      h.unanswered.await_mem (hrest ▸ List.mem_append_right _ List.mem_cons_self)
    have hnot : .await expired.condition ∉ missed.map Event.status := by simp
    rw [hlast, hcondition] at hrest
    cases rest with
    | nil =>
      rw [← (List.cons.inj hrest).2] at hmem
      obtain ⟨reading, hreading, heq⟩ := List.mem_map.1 hmem
      rw [hcondition, ← Event.status.inj heq]
      exact hmissed reading hreading
    | cons event rest =>
      exact absurd ((List.cons.inj hrest).2 ▸ List.mem_append_right _ List.mem_cons_self) hnot

theorem request_leaves (call : Call) : (compositor.request call).Leaves (compositor.Requested call)
    fun expired => Trace.Then (fun front => front.calls <+: [call] ∧
        ∀ condition, .await condition ∈ front → condition = inSync)
      fun last => expired.condition = inSync ∧ last.GivenUp expired := by
  have hsync (policy : Register.SyncPolicy) :
      (if compositor.map.sync = policy then wait inSync else pure ()).Leaves
        (compositor.Synced policy)
        fun expired trace => expired.condition = inSync ∧ trace.GivenUp expired := by
    unfold Compositor.Synced
    split
    · exact .wait inSync
    · exact Leaves.done.weaken (fun _ h => h) fun _ _ h => h.elim
  refine ((hsync .beforeWrite).bind ((Leaves.perform call).bind (hsync .afterWrite))).weaken
    (fun _ h => h) fun expired trace hill => ?_
  rcases hill with hgiven | ⟨before, _, rfl, hbefore, hfalse | ⟨made, last, rfl, hmade, hgiven⟩⟩
  · exact ⟨[], trace, rfl, ⟨List.nil_prefix, fun _ hmem => absurd hmem List.not_mem_nil⟩, hgiven⟩
  · exact hfalse.elim
  · refine ⟨before ++ made, last, (List.append_assoc _ _ _).symm, ⟨?_, fun condition hmem => ?_⟩, hgiven⟩
    · rw [Trace.calls_append, synced_calls hbefore, hmade.calls_eq]
      exact List.prefix_rfl
    · rcases List.mem_append.1 hmem with hmem | hmem
      · exact synced_await_mem hbefore hmem
      · exact absurd hmem hmade.await_not_mem

theorem asked_leaves (course : Course) (compositor : Compositor) (stage : Stage) :
    ((compositor.request (course.request stage)).bind fun _ => wait (course.shown stage)).Leaves
      (course.Acknowledges compositor stage)
      fun expired trace => ∃ front last, trace = front ++ last ∧ course.GivesUp stage expired front last := by
  refine ((request_leaves (course.request stage)).bind (.wait (course.shown stage))).weaken
    (fun _ h => h) fun expired trace hill => ?_
  rcases hill with ⟨front, last, rfl, ⟨hcalls, hawaits⟩, hcondition, hgiven⟩ |
    ⟨front, last, rfl, hfront, hcondition, hgiven⟩
  · exact ⟨front, last, rfl, hcalls, hawaits, hgiven, .inl hcondition⟩
  · refine ⟨front, last, rfl, ?_, fun _ hmem => requested_await_mem hfront hmem, hgiven, .inr hcondition⟩
    exact ⟨[], by rw [List.append_nil, requested_calls hfront]⟩

/-! ## All stages -/

/-- What a course through `steps` leaves in the trace: all that happened at the stages that it `passed`, and
then at the one where it gave up, if it did. -/
inductive Went (course : Course) (compositor : Compositor) :
    List Stage → List Stage → Option Timeout → Trace → Prop
  | through : Went course compositor [] [] none []
  | passed {stage : Stage} {rest passed : List Stage} {outcome : Option Timeout} {part trace : Trace}
    (hpart : course.Acknowledges compositor stage part) (entry : Log.Entry)
    (hrest : Went course compositor rest passed outcome trace) :
    Went course compositor (stage :: rest) (stage :: passed) outcome (part ++ .note entry :: trace)
  | givenUp {stage : Stage} (rest : List Stage) {expired : Timeout} {front last : Trace}
    (h : course.GivesUp stage expired front last) :
    Went course compositor (stage :: rest) [] (some expired) (front ++ last)

/-- How a script ends that went through some stages: well, or because this wait was given up. -/
def Concludes {α : Type} (value : α) (power : Power) (ending : Ending α) : Option Timeout → Prop
  | none => ending = .ok value
  | some expired => ending.Expires power expired

theorem Concludes.ok_iff {α : Type} {value : α} {power : Power} {ending : Ending α}
    {outcome : Option Timeout} (h : Concludes value power ending outcome) :
    ending = .ok value ↔ outcome = none := by
  cases outcome with
  | none => exact ⟨fun _ => rfl, fun _ => h⟩
  | some expired =>
    refine ⟨fun hok => ?_, nofun⟩
    rw [hok] at h
    exact h.elim

theorem play_acknowledged (machine : Machine σ) (moment : Moment σ) (stage : Stage) (direction : String)
    (power : Power) : ∃ entry, machine.play (Compositor.acknowledged stage direction power) moment =
      (.ok (), { moment with state := { moment.state with power } }.append [.note entry]) :=
  ⟨_, rfl⟩

theorem play_step (course : Course) (compositor : Compositor) (machine : Machine σ) (moment : Moment σ)
    (stage : Stage) :
    let played := machine.play (course.step compositor stage) moment
    (∃ part entry, course.Acknowledges compositor stage part ∧ played.1 = .ok () ∧
        played.2.state = { moment.state with power := course.power stage } ∧
        played.2.trace = moment.trace ++ (part ++ [.note entry])) ∨
      ∃ expired front last, course.GivesUp stage expired front last ∧
        played.1.Expires moment.state.power expired ∧ played.2.state = moment.state ∧
        played.2.trace = moment.trace ++ (front ++ last) := by
  intro played
  obtain ⟨part, hstate, htrace, hends⟩ := (asked_leaves course compositor stage).ends machine moment
  simp only [played, step]
  rw [Machine.play_bind]
  generalize machine.play _ moment = asked at hstate htrace hends
  obtain ⟨ending, later⟩ := asked
  simp only at hstate htrace hends ⊢
  rcases hends with ⟨rfl, hpart⟩ | ⟨expired, ⟨front, last, rfl, hgives⟩, hexpires⟩
  · obtain ⟨entry, hplay⟩ :=
      play_acknowledged machine later stage course.word (course.power stage)
    refine .inl ⟨part, entry, hpart, ?_⟩
    simp only [hplay, Moment.append, hstate, htrace, List.append_assoc, and_self]
  · refine .inr ⟨expired, front, last, hgives, ?_⟩
    cases ending with
    | ok value => exact hexpires.elim
    | failed error => exact ⟨hexpires, hstate, htrace⟩
    | stalled => exact ⟨hexpires, hstate, htrace⟩

/-- **However the hardware answers, a course goes through its stages one by one**, to the end or to the first
one that is not acknowledged. -/
theorem play_each (course : Course) (compositor : Compositor) (machine : Machine σ) (steps : List Stage)
    (moment : Moment σ) :
    let played := machine.play (each (course.step compositor) steps) moment
    ∃ passed outcome part, course.Went compositor steps passed outcome part ∧
      played.2.trace = moment.trace ++ part ∧
      played.2.state = { moment.state with power := course.standing moment.state.power passed } ∧
      Concludes () played.2.state.power played.1 outcome := by
  induction steps generalizing moment with
  | nil =>
    refine ⟨[], none, [], .through, ?_, rfl, rfl⟩
    rw [each, Machine.play_done, List.append_nil]
  | cons stage rest ih =>
    rw [each, Machine.play_bind]
    have hstep := play_step course compositor machine moment stage
    generalize machine.play (course.step compositor stage) moment = asked at hstep
    obtain ⟨ending, later⟩ := asked
    simp only at hstep
    rcases hstep with ⟨part, entry, hpart, rfl, hstate, htrace⟩ |
      ⟨expired, front, last, hgives, hexpires, hstate, htrace⟩
    · obtain ⟨passed, outcome, more, hwent, hmore, hlast, hends⟩ := ih later
      refine ⟨stage :: passed, outcome, _, .passed hpart entry hwent, ?_, ?_, hends⟩
      · rw [hmore, htrace]
        simp only [List.append_assoc, List.singleton_append]
      · rw [hlast, hstate, standing_cons]
    · refine ⟨[], some expired, _, .givenUp rest hgives, ?_⟩
      have hpower : later.state.power = moment.state.power := congrArg State.power hstate
      cases ending with
      | ok value => exact hexpires.elim
      | failed error => exact ⟨htrace, hstate, hpower ▸ hexpires⟩
      | stalled => exact ⟨htrace, hstate, trivial⟩

/-! ## What a course comes to -/

/-- A stage was acknowledged somewhere in a trace. -/
def Acknowledged (course : Course) (compositor : Compositor) (stage : Stage) (trace : Trace) : Prop :=
  ∃ earlier part later, trace = earlier ++ part ++ later ∧ course.Acknowledges compositor stage part

theorem Acknowledged.prepend (h : course.Acknowledged compositor stage trace) (before : Trace) :
    course.Acknowledged compositor stage (before ++ trace) := by
  obtain ⟨earlier, part, later, rfl, hpart⟩ := h
  exact ⟨before ++ earlier, part, later, by simp only [List.append_assoc], hpart⟩

namespace Went

variable {steps passed : List Stage} {outcome : Option Timeout}

theorem passed_prefix (h : course.Went compositor steps passed outcome trace) : passed <+: steps := by
  induction h with
  | through => exact List.prefix_rfl
  | passed hpart entry hrest ih => exact (List.prefix_cons_inj _).2 ih
  | givenUp rest h => exact List.nil_prefix

theorem outcome_eq_none_iff (h : course.Went compositor steps passed outcome trace) :
    outcome = none ↔ passed = steps := by
  induction h with
  | through => simp
  | passed hpart entry hrest ih => simpa using ih
  | givenUp rest h => simp

theorem calls_prefix (h : course.Went compositor steps passed outcome trace) :
    trace.calls <+: steps.map course.request := by
  induction h with
  | through => exact List.nil_prefix
  | passed hpart entry hrest ih =>
    rw [Trace.calls_append, hpart.calls_eq]
    exact (List.prefix_cons_inj _).2 ih
  | givenUp rest h => exact h.calls_prefix.trans ((List.prefix_cons_inj _).2 List.nil_prefix)

theorem calls_eq (h : course.Went compositor steps passed none trace) :
    trace.calls = steps.map course.request := by
  generalize houtcome : none = outcome at h
  induction h with
  | through => rfl
  | passed hpart entry hrest ih =>
    rw [Trace.calls_append, hpart.calls_eq]
    exact congrArg (course.request _ :: ·) (ih houtcome)
  | givenUp rest h => cases houtcome

theorem requested (h : course.Went compositor steps passed outcome trace) {earlier later : Trace}
    (hcall : trace = earlier ++ .call call :: later) :
    ∃ front stage back, steps = front ++ stage :: back ∧ call = course.request stage ∧
      ∀ other ∈ front, course.Acknowledged compositor other earlier := by
  induction h generalizing earlier with
  | through => cases earlier <;> cases hcall
  | @passed stage rest _ _ part more hpart entry hrest ih =>
    rcases append_eq_append_cons hcall with ⟨_, htrace, -⟩ | ⟨front, rfl, hmore⟩
    · have hmem : call ∈ part.calls :=
        Trace.mem_calls.2 (htrace ▸ List.mem_append_right _ List.mem_cons_self)
      rw [hpart.calls_eq, List.mem_singleton] at hmem
      exact ⟨[], stage, rest, rfl, hmem, fun _ hother => absurd hother List.not_mem_nil⟩
    · cases front with
      | nil => cases hmore
      | cons event front =>
        obtain ⟨-, hmore⟩ := List.cons.inj hmore
        obtain ⟨before, asked, back, rfl, hasked, hbefore⟩ := ih hmore
        refine ⟨stage :: before, asked, back, rfl, hasked,
          List.forall_mem_cons.2 ⟨?_, fun other hother => ?_⟩⟩
        · exact ⟨[], part, event :: front, rfl, hpart⟩
        · have hacknowledged := (hbefore other hother).prepend (part ++ [event])
          rwa [List.append_assoc] at hacknowledged
  | @givenUp stage rest expired front last h =>
    have hmem : call ∈ Trace.calls (front ++ last) :=
      Trace.mem_calls.2 (hcall ▸ List.mem_append_right _ List.mem_cons_self)
    have hcall := List.mem_singleton.1 (h.calls_prefix.subset hmem)
    exact ⟨[], stage, rest, rfl, hcall, fun _ hother => absurd hother List.not_mem_nil⟩

theorem acknowledged_of_mem (h : course.Went compositor steps passed outcome trace)
    (hmem : stage ∈ passed) : course.Acknowledged compositor stage trace := by
  induction h with
  | through => exact absurd hmem List.not_mem_nil
  | @passed _ _ _ _ part more hpart entry hrest ih =>
    rcases List.mem_cons.1 hmem with rfl | hmem
    · exact ⟨[], part, _, rfl, hpart⟩
    · exact ((ih hmem).prepend [.note entry]).prepend part
  | givenUp rest h => exact absurd hmem List.not_mem_nil

/-- A stage that shows itself after it was waited for was passed. -/
theorem mem_of_shown (h : course.Went compositor steps passed outcome trace) {earlier later : Trace}
    {status : Signals} (hsplit : trace = earlier ++ .await (course.shown stage) :: later)
    (hmem : .status status ∈ later) (hholds : (course.shown stage).holds status = true) :
    stage ∈ passed := by
  induction h generalizing earlier with
  | through => cases earlier <;> cases hsplit
  | passed hpart entry hrest ih =>
    -- the wait is that of the first stage, or it comes after all that happened there
    rcases append_eq_append_cons hsplit with ⟨_, htrace, -⟩ | ⟨front, -, hmore⟩
    · obtain rfl := hpart.eq_of_await_mem (htrace ▸ List.mem_append_right _ List.mem_cons_self)
      exact List.mem_cons_self
    · cases front with
      | nil => cases hmore
      | cons event front => exact List.mem_cons_of_mem _ (ih (List.cons.inj hmore).2)
  | givenUp rest h =>
    rw [h.not_shown hsplit hmem] at hholds
    cases hholds

theorem acknowledged_iff (h : course.Went compositor steps passed outcome trace) :
    course.Acknowledged compositor stage trace ↔ stage ∈ passed := by
  refine ⟨?_, h.acknowledged_of_mem⟩
  rintro ⟨earlier, _, later, htrace, front, _, rfl, -, missed, found, rfl, -, hfound⟩
  have hsplit : trace = (earlier ++ front) ++
      .await (course.shown stage) :: ((missed ++ [found]).map Event.status ++ later) := by
    rw [htrace]
    simp only [List.append_assoc, List.cons_append]
  refine h.mem_of_shown hsplit (List.mem_append_left _ ?_) hfound
  exact List.mem_map_of_mem (List.mem_append_right _ List.mem_cons_self)

theorem givenUp_last {expired : Timeout}
    (h : course.Went compositor steps passed (some expired) trace) :
    ∃ front last, trace = front ++ last ∧ last.GivenUp expired := by
  generalize houtcome : some expired = outcome at h
  induction h with
  | through => cases houtcome
  | @passed _ _ _ _ part more hpart entry hrest ih =>
    obtain ⟨front, last, rfl, hlast⟩ := ih houtcome
    exact ⟨part ++ .note entry :: front, last, by simp only [List.append_assoc, List.cons_append], hlast⟩
  | givenUp rest h =>
    cases houtcome
    exact ⟨_, _, rfl, h.unanswered⟩

end Went

end Course

end BootLogo
