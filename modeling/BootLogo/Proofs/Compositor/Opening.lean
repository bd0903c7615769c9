import BootLogo.Proofs.Compositor.BaseLayer
import BootLogo.Proofs.Compositor.Brightness
import BootLogo.Proofs.Compositor.Course
import BootLogo.Proofs.Compositor.TimingFields
import BootLogo.Proofs.Hardware.Replay
import Mathlib.Data.List.Induction

/-!
# What a start tells the controller

* `Call.Starts`: requests for signals and the timing; nothing but a start makes such calls (`steady`).
* `openingCalls`: all calls of a start until the controller is up: every stage is given back, the timing is
  written, every stage is asked for. Those of them that are `Call.Starts` are the `startCalls`.
* `Opened`: these calls were made, none that starts anything since, and the controller counts as running. A
  start that ends well leads there; then the backlight is dark and the base layer is shown (`init_opens`).
-/

namespace BootLogo

open Compositor (State inSync)

/-- A call that starts or stops something: a request for a signal, or the timing. -/
def Call.Starts : Call → Bool
  | .enable _ | .disable _ => true
  | .write (.cfg index) _ => decide (index < 6)
  | _ => false

theorem Call.quiet_of_not_starts {call : Call} (h : call.Starts = false) : call.Quiet := by
  cases call with
  | enable signals => cases h
  | disable signals => cases h
  | _ => trivial

namespace Compositor

open Script

variable {σ α : Type} {compositor : Compositor} {machine : Machine σ} {words : TimingWords}
  {calls : List Call} {moment later : Moment σ} {more : Trace} {level : UInt8} {s : Script α}

/-! ## Calls -/

/-- The writes of numbered registers. -/
def configWrites (writes : List (Nat × UInt32)) : List Call :=
  writes.map fun (index, word) => .write (.cfg index) word

/-- All calls of a start until the controller is up. -/
def openingCalls (compositor : Compositor) (words : TimingWords) : List Call :=
  compositor.stages.reverse.map (·.ask false) ++ configWrites words.writes ++
    compositor.stages.map (·.ask true)

/-- Those that start or stop something: every stage down, CFG0 to CFG5, every stage up. -/
def startCalls (compositor : Compositor) (words : TimingWords) : List Call :=
  compositor.stages.reverse.map (·.ask false) ++ configWrites (words.config.zipIdx.map Prod.swap) ++
    compositor.stages.map (·.ask true)

theorem length_config (h : compositor.timingWords = .ok words) : words.config.length = 6 := by
  obtain ⟨clock, -, rfl⟩ := timingWords_eq_ok h
  rfl

theorem index_lt_of_mem_config (h : compositor.timingWords = .ok words) {index : Nat} {word : UInt32}
    (hmem : (index, word) ∈ words.config.zipIdx.map Prod.swap) : index < 6 := by
  obtain ⟨⟨_, _⟩, hentry, heq⟩ := List.mem_map.1 hmem
  cases heq
  have hlt := (List.mem_zipIdx hentry).2.1
  rwa [Nat.zero_add, length_config h] at hlt

theorem configWrites_writes (words : TimingWords) : configWrites words.writes =
    configWrites (words.config.zipIdx.map Prod.swap) ++
      (words.pwm.map fun word => .write (.cfg 6) word).toList := by
  rw [TimingWords.writes, configWrites, List.map_append]
  cases words.pwm <;> rfl

theorem mem_configWrites {writes : List (Nat × UInt32)} {call : Call} :
    call ∈ configWrites writes ↔ ∃ index word, (index, word) ∈ writes ∧ call = .write (.cfg index) word := by
  simp only [configWrites, List.mem_map, Prod.exists, eq_comm]

theorem filter_openingCalls (h : compositor.timingWords = .ok words) :
    (compositor.openingCalls words).filter Call.Starts = compositor.startCalls words := by
  have hasks (on : Bool) (stages : List Stage) :
      (stages.map (·.ask on)).filter Call.Starts = stages.map (·.ask on) := by
    rw [List.filter_eq_self]
    intro call hcall
    obtain ⟨stage, -, rfl⟩ := List.mem_map.1 hcall
    cases on <;> rfl
  have hconfig : (configWrites (words.config.zipIdx.map Prod.swap)).filter Call.Starts =
      configWrites (words.config.zipIdx.map Prod.swap) := by
    rw [List.filter_eq_self]
    intro call hcall
    obtain ⟨index, word, hmem, rfl⟩ := mem_configWrites.1 hcall
    exact decide_eq_true (index_lt_of_mem_config h hmem)
  have hpwm : (words.pwm.map fun word => Call.write (.cfg 6) word).toList.filter Call.Starts = [] := by
    cases words.pwm <;> rfl
  rw [openingCalls, configWrites_writes, List.filter_append, List.filter_append, List.filter_append,
    hasks, hasks, hconfig, hpwm, List.append_nil]
  rfl

theorem lastWritten?_configWrites (list : List UInt32) (index : Nat) :
    lastWritten? (.cfg index) (configWrites (list.zipIdx.map Prod.swap)) = list[index]? := by
  induction list using List.reverseRecOn with
  | nil => rfl
  | append_singleton front word ih =>
    have hsnoc : configWrites ((front ++ [word]).zipIdx.map Prod.swap) =
        configWrites (front.zipIdx.map Prod.swap) ++ [.write (.cfg front.length) word] := by
      rw [List.zipIdx_append, List.map_append, configWrites, List.map_append, Nat.zero_add]
      rfl
    have hlast : lastWritten? (.cfg index) [.write (.cfg front.length) word] =
        if front.length = index then some word else none := by
      simp only [lastWritten?_cons, lastWritten?_nil, Option.none_or, Call.written?, Register.cfg.injEq]
    rw [hsnoc, lastWritten?_append, hlast, ih]
    by_cases hindex : front.length = index
    · rw [if_pos hindex, ← hindex, List.getElem?_concat_length]
      rfl
    · rw [if_neg hindex, Option.none_or, List.getElem?_append]
      split
      · rfl
      · rw [List.getElem?_eq_none (by omega), List.getElem?_eq_none (by simp; omega)]

theorem written?_of_not_starts {call : Call} {index : Nat} (hindex : index < 6) (h : call.Starts = false) :
    call.written? (.cfg index) = none := by
  cases call with
  | write register value =>
    refine if_neg ?_
    rintro rfl
    exact absurd (decide_eq_true hindex) (by rw [show decide (index < 6) = false from h]; nofun)
  | _ => rfl

theorem lastWritten?_filter_starts {index : Nat} (hindex : index < 6) (calls : List Call) :
    lastWritten? (.cfg index) (calls.filter Call.Starts) = lastWritten? (.cfg index) calls := by
  induction calls with
  | nil => rfl
  | cons call calls ih =>
    rw [lastWritten?_cons]
    cases hstarts : call.Starts with
    | true => rw [List.filter_cons_of_pos hstarts, lastWritten?_cons, ih]
    | false =>
      rw [List.filter_cons_of_neg (by rw [hstarts]; exact Bool.false_ne_true), ih,
        written?_of_not_starts hindex hstarts, Option.or_none]

theorem lastWritten?_startCalls (index : Nat) :
    lastWritten? (.cfg index) (compositor.startCalls words) = words.config[index]? := by
  have hasks (on : Bool) (stages : List Stage) :
      lastWritten? (.cfg index) (stages.map (·.ask on)) = none := by
    rw [lastWritten?_eq_none_iff]
    intro call hcall
    obtain ⟨stage, -, rfl⟩ := List.mem_map.1 hcall
    cases on <;> rfl
  rw [startCalls, lastWritten?_append, lastWritten?_append, hasks, hasks, lastWritten?_configWrites,
    Option.none_or, Option.or_none]

/-! ## Coming up -/

/-- A course that ends well has asked for every stage, and the controller stands where the last one leads. -/
theorem course_triple (course : Course) (steps : List Stage) :
    Triple machine (fun moment => moment.trace.calls = calls) (each (course.step compositor) steps)
      (fun _ moment => moment.trace.calls = calls ++ steps.map course.request ∧
        ∃ before, moment.state.power = course.standing before steps)
      fun error _ => error.OfHardware := by
  refine .of_play ?_ ?_
  · rintro moment value rfl hok
    obtain ⟨passed, outcome, part, hwent, htrace, hstate, hends⟩ :=
      Course.play_each course compositor machine steps moment
    cases outcome with
    | some expired =>
      rw [hok] at hends
      exact hends.elim
    | none =>
      obtain rfl : passed = steps := hwent.outcome_eq_none_iff.1 rfl
      refine ⟨?_, moment.state.power, congrArg State.power hstate⟩
      rw [htrace, Trace.calls_append, hwent.calls_eq]
  · intro moment error _ hfailed
    obtain ⟨passed, outcome, part, -, -, -, hends⟩ :=
      Course.play_each course compositor machine steps moment
    rw [hfailed] at hends
    cases outcome with
    | none => cases hends
    | some expired => exact .inr ⟨_, _, hends.2⟩

theorem tearDown_opens :
    Triple machine (fun moment => moment.trace.calls = []) compositor.tearDown
      (fun _ moment => moment.trace.calls = compositor.stages.reverse.map (·.ask false))
      fun error _ => error.OfHardware := by
  refine Triple.bind (course_triple (.falling compositor) _) fun _ => .modify fun moment h => h.1

theorem programTiming_plays {state : State} (h : compositor.timingWords = .ok words) :
    compositor.programTiming.Plays state () state (configWrites words.writes) := by
  have hwrite (write : Nat × UInt32) : (compositor.write (.cfg write.1) write.2).Plays state () state
      [.write (.cfg write.1) write.2] := compositor.write_plays _ _
  refine .congr ((Plays.ofExcept h state).bind ((Plays.each hwrite words.writes).bind (Plays.say _ state))) ?_
  rw [List.nil_append, List.append_nil]
  exact List.map_eq_flatMap.symm

theorem programTiming_opens (h : compositor.timingWords = .ok words) :
    Triple machine (fun moment => moment.trace.calls = calls) compositor.programTiming
      (fun _ moment => moment.trace.calls = calls ++ configWrites words.writes)
      fun error _ => error.OfHardware := by
  -- its calls are known for each state apart
  intro moment hcalls
  exact (programTiming_plays h).triple.weaken (fun _ h => h) (fun _ _ h => h.2.2) (fun _ _ h => h) moment
    ⟨rfl, hcalls⟩

theorem bringUp_opens :
    Triple machine (fun moment => moment.trace.calls = calls) compositor.bringUp
      (fun _ moment => moment.trace.calls = calls ++ compositor.stages.map (·.ask true) ∧
        compositor.isRunning moment.state.power = true)
      fun error _ => error.OfHardware := by
  refine (course_triple .rising _).weaken (fun _ h => h) (fun _ moment h => ⟨h.1, ?_⟩) fun _ _ h => h
  obtain ⟨before, hpower⟩ := h.2
  rw [hpower, Course.standing_rising]
  exact compositor.isRunning_runningPower

/-! ## Being up -/

/-- Nothing is started or stopped. -/
def steady : Limits where
  event
    | .call made => made.Starts = false
    | _ => True
  change state later := later.power = state.power
  error _ := True

theorem programming_le_steady (layer : Layer) (refusals : Error → Prop) :
    compositor.programming layer refusals ≤ steady := by
  refine ⟨fun event hevent => ?_, fun _ _ hchange => hchange.1, fun _ _ => trivial⟩
  cases event with
  | call made =>
    cases made with
    | write register value =>
      cases register with
      | cfg index => exact absurd hevent.2 (by simp [Call.Programs, Register.layer?])
      | _ => rfl
    | enable signals => exact hevent.2.elim
    | disable signals => exact hevent.2.elim
    | _ => rfl
  | _ => trivial

theorem dimming_le_steady : dimming ≤ steady := by
  refine ⟨fun event hevent => ?_, fun _ _ hchange => hchange.1, fun _ _ => trivial⟩
  cases event with
  | call made =>
    obtain ⟨value, rfl⟩ := hevent
    rfl
  | _ => trivial

/-- The controller counts as running, and was told first what a start tells it and then nothing more of that
kind. -/
structure Opened (compositor : Compositor) (words : TimingWords) (moment : Moment σ) : Prop where
  running : compositor.isRunning moment.state.power = true
  calls : ∃ later, moment.trace.calls = compositor.openingCalls words ++ later ∧
    ∀ call ∈ later, call.Starts = false

theorem Opened.append (h : compositor.Opened words moment) (htrace : later.trace = moment.trace ++ more)
    (hpower : later.state.power = moment.state.power) (hmore : ∀ call ∈ more.calls, call.Starts = false) :
    compositor.Opened words later := by
  obtain ⟨hrunning, since, hcalls, hsince⟩ := h
  refine ⟨by rw [hpower, hrunning], since ++ more.calls, ?_, fun call hcall => ?_⟩
  · rw [htrace, Trace.calls_append, hcalls, List.append_assoc]
  · exact (List.mem_append.1 hcall).elim (hsince call) (hmore call)

theorem Opened.of_step {hardware : Hardware σ} (h : Step hardware steady moment later)
    (hopened : compositor.Opened words moment) : compositor.Opened words later := by
  cases h with
  | call hcall =>
    refine hopened.append rfl rfl fun call hmem => ?_
    rw [List.mem_singleton.1 hmem]
    exact hcall
  | pin hpin =>
    refine hopened.append rfl rfl fun call hmem => ?_
    split at hmem <;> exact absurd hmem List.not_mem_nil
  | store hchange => exact ⟨by rw [show _ = _ from hchange, hopened.running], hopened.calls⟩
  | _ => exact hopened.append rfl rfl fun call hmem => absurd hmem List.not_mem_nil

theorem opened_triple (hs : ∀ state, s.Within steady state) :
    Triple machine (compositor.Opened words) s (fun _ => compositor.Opened words)
      fun _ => compositor.Opened words :=
  Within.triple hs fun hstep => Opened.of_step hstep

theorem Opened.filter_calls (h : compositor.Opened words moment)
    (hwords : compositor.timingWords = .ok words) :
    moment.trace.calls.filter Call.Starts = compositor.startCalls words := by
  obtain ⟨later, hcalls, hlater⟩ := h.calls
  have hnone : later.filter Call.Starts = [] := by
    rw [List.filter_eq_nil_iff]
    exact fun call hcall => by rw [hlater call hcall]; exact Bool.false_ne_true
  rw [hcalls, List.filter_append, filter_openingCalls hwords, hnone, List.append_nil]

theorem Opened.lastWritten?_config (h : compositor.Opened words moment)
    (hwords : compositor.timingWords = .ok words) {index : Nat} (hindex : index < 6) :
    lastWritten? (.cfg index) moment.trace.calls = words.config[index]? := by
  rw [← lastWritten?_filter_starts hindex, h.filter_calls hwords, lastWritten?_startCalls]

/-! ## A whole start -/

theorem dimmed_triple (hs : ∀ state, s.Within dimming state)
    (hlit : Triple machine (fun _ => True) s (fun _ moment => compositor.Lit level moment.trace)
      fun _ _ => True) :
    Triple machine (compositor.Opened words) s
      (fun _ moment => compositor.Opened words moment ∧ compositor.Lit level moment.trace)
      fun error _ => error.OfHardware := by
  have hopened := @opened_triple _ _ compositor machine words s fun state => (hs state).mono dimming_le_steady
  have hends : Triple machine (fun _ => True) s (fun _ _ => True) fun error _ => error.OfHardware :=
    Within.ofHardware hs fun _ => id
  exact ((hopened.and hlit).and hends).weaken (fun _ h => ⟨⟨h, trivial⟩, trivial⟩) (fun _ _ h => h.1)
    fun _ _ h => h.2

theorem showBase_shows (mode : CommitMode) :
    Triple machine (fun _ => True) (compositor.showBase mode)
      (fun _ moment => compositor.BaseShown moment.trace.calls) fun error _ => error.OfHardware := by
  intro moment _
  refine showBase_plays.triple.weaken (fun _ h => h) (fun _ later h => ?_) (fun _ _ h => h) moment ⟨rfl, rfl⟩
  rw [h.2.2]
  exact baseShown_baseCalls.prepend _

theorem showBase_opened (mode : CommitMode) :
    Triple machine
      (fun moment => compositor.Opened words moment ∧ compositor.Lit level moment.trace)
      (compositor.showBase mode)
      (fun _ moment => compositor.Opened words moment ∧ compositor.Lit level moment.trace ∧
        compositor.BaseShown moment.trace.calls)
      fun error _ => error.OfHardware := by
  have hs (state : State) : (compositor.showBase mode).Within (compositor.programming .base fun _ => False)
      state := (compositor.showBase_orderly mode).within
  have hopened := @opened_triple _ _ compositor machine words _ fun state =>
    (hs state).mono (programming_le_steady .base _)
  have hlit := @lit_triple _ _ compositor machine level _ fun state =>
    (hs state).mono (programming_le_undriven .base _)
  exact ((hopened.and hlit).and (showBase_shows mode)).weaken (fun _ h => ⟨h, trivial⟩)
    (fun _ _ h => ⟨h.1.1, h.1.2, h.2⟩) fun _ _ h => h.2

/-- **A start that ends well** has made the calls of the opening, and left the controller running, dark and
with the base layer shown. If it fails, the hardware has not answered or has refused. -/
theorem init_opens (h : compositor.timingWords = .ok words) :
    Triple machine (fun moment => moment.trace.calls = []) compositor.init
      (fun _ moment => compositor.Opened words moment ∧ compositor.Lit 0 moment.trace ∧
        compositor.BaseShown moment.trace.calls)
      fun error _ => error.OfHardware := by
  have hdark : Triple machine (compositor.Opened words) (compositor.setBacklight 0)
      (fun _ moment => compositor.Opened words moment ∧ compositor.Lit 0 moment.trace)
      fun error _ => error.OfHardware :=
    dimmed_triple (fun _ => (compositor.setBacklight_dims 0).within) (setBacklight_lit 0)
  have hup : Triple machine
      (fun moment => moment.trace.calls = compositor.stages.reverse.map (·.ask false) ++
        configWrites words.writes) compositor.bringUp
      (fun _ => compositor.Opened words) fun error _ => error.OfHardware :=
    bringUp_opens.weaken (fun _ h => h)
      (fun _ _ h => ⟨h.2, [], by rw [h.1, openingCalls, List.append_nil], nofun⟩) fun _ _ h => h
  refine (Triple.ofExcept h).bind fun _ => tearDown_opens.bind fun _ => (programTiming_opens h).bind fun _ => ?_
  exact hup.bind fun _ => hdark.bind fun _ => showBase_opened _

end Compositor

end BootLogo
