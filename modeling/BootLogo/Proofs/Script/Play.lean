import BootLogo.Proofs.Script.Calls
import BootLogo.Proofs.Wait

/-!
# Playing a script step by step

A `Machine` plays a script from one `Moment` to another. `play` is `Script.run` with what happened before
kept in front; it has one equation for each step of a script, and `play_await` says what a wait did.
-/

namespace BootLogo

open Compositor (State)

variable {σ α β : Type}

def Ending.map (f : α → β) : Ending α → Ending β
  | .ok value => .ok (f value)
  | .failed error => .failed error
  | .stalled => .stalled

theorem Ending.map_eq_failed {f : α → β} {ending : Ending α} {error : Error} :
    ending.map f = .failed error ↔ ending = .failed error := by
  cases ending <;> simp [map]

theorem Ending.map_eq_ok {f : α → β} {ending : Ending α} {result : β} :
    ending.map f = .ok result ↔ ∃ value, ending = .ok value ∧ f value = result := by
  cases ending <;> simp [map]

/-- A hardware and how long it is waited for. -/
structure Machine (σ : Type) where
  hardware : Hardware σ
  budget : Budget
  patience : Nat

/-- Where a run stands. -/
structure Moment (σ : Type) where
  state : State
  world : σ
  trace : Trace

namespace Moment

variable {hardware : Hardware σ} {moment : Moment σ}

def append (moment : Moment σ) (events : Trace) : Moment σ :=
  { moment with trace := moment.trace ++ events }

def call (hardware : Hardware σ) (call : Call) (moment : Moment σ) : Moment σ :=
  { moment with world := hardware.apply call moment.world }.append [.call call]

/-- The status was read a number of times. -/
def reads (hardware : Hardware σ) (count : Nat) (moment : Moment σ) : Moment σ :=
  let readings := Wait.readings hardware.status count moment.world
  { moment with world := readings.2 }.append (readings.1.map Event.status)

def drive (hardware : Hardware σ) (high : Bool) (moment : Moment σ) : Moment σ :=
  let driven := hardware.drive high moment.world
  { moment with world := driven.2 }.append [if driven.1 then .pin high else .pinRefused high]

@[simp] theorem append_append (earlier later : Trace) :
    (moment.append earlier).append later = moment.append (earlier ++ later) := by
  simp only [append, List.append_assoc]

@[simp] theorem append_nil : moment.append [] = moment := by simp only [append, List.append_nil]

@[simp] theorem reads_zero : moment.reads hardware 0 = moment := append_nil

theorem reads_succ (count : Nat) :
    moment.reads hardware (count + 1) = (moment.reads hardware 1).reads hardware count := by
  simp [reads, append, Wait.readings]

end Moment

namespace Machine

variable (machine : Machine σ) (moment : Moment σ)

/-- How a script ends that is played from a moment on, and where that leaves off. -/
def play (machine : Machine σ) (s : Script α) (moment : Moment σ) : Ending α × Moment σ :=
  let run := s.run machine.hardware machine.budget machine.patience moment.state moment.world
  (run.ending, ⟨run.state, run.hardware, moment.trace ++ run.trace⟩)

@[simp] theorem play_done (value : α) : machine.play (.done value) moment = (.ok value, moment) := by
  simp only [play, Script.run, List.append_nil]

@[simp] theorem play_fail (error : Error) :
    machine.play (.fail error : Script α) moment = (.failed error, moment) := by
  simp only [play, Script.run, List.append_nil]

theorem play_note (entries : Log) (rest : Script α) :
    machine.play (.note entries rest) moment =
      machine.play rest (moment.append (entries.map Event.note)) := by
  simp only [play, Script.run, Run.after, Moment.append, List.append_assoc]

theorem play_call (call : Call) (rest : Script α) :
    machine.play (.call call rest) moment =
      machine.play rest ((moment.call machine.hardware call).append
        ((machine.hardware.remarks call).map Event.note)) := by
  simp only [play, Script.run, Run.after, Moment.call, Moment.append, List.append_assoc,
    List.singleton_append]

theorem play_await_met {condition : Condition} {reads : Nat} (rest : Script α)
    (hmet : (Wait.poll machine.hardware.status condition machine.budget machine.patience
      moment.world).ending = .met reads) :
    let asked := moment.append [.await condition]
    ∃ count, let later := asked.reads machine.hardware count
      (∀ status ∈ (Wait.readings machine.hardware.status count moment.world).1,
        condition.holds status = false) ∧
      condition.holds (machine.hardware.status later.world).1 = true ∧
        machine.play (.await condition rest) moment =
          machine.play rest (asked.reads machine.hardware (count + 1)) := by
  intro asked
  obtain ⟨count, hmissed, hholds, hseen, hsource⟩ := Wait.poll_met hmet
  refine ⟨count, hmissed, hholds, ?_⟩
  simp [play, Script.run, hmet, hseen, hsource, Run.after, asked, Moment.reads, Moment.append]

/-- A wait reads a status that misses its condition any number of times. Then it is met, it times out, or
it never ends. -/
theorem play_await (condition : Condition) (rest : Script α) :
    let asked := moment.append [.await condition]
    ∃ count, let later := asked.reads machine.hardware count
      (∀ status ∈ (Wait.readings machine.hardware.status count moment.world).1,
        condition.holds status = false) ∧
      ((condition.holds (machine.hardware.status later.world).1 = true ∧
          machine.play (.await condition rest) moment =
            machine.play rest (asked.reads machine.hardware (count + 1))) ∨
        (0 < count ∧ machine.play (.await condition rest) moment =
          (.failed (.timeout moment.state.power ⟨condition, count⟩), later)) ∨
        machine.play (.await condition rest) moment = (.stalled, later)) := by
  intro asked
  cases hending : (Wait.poll machine.hardware.status condition machine.budget machine.patience
    moment.world).ending with
  | met reads =>
    obtain ⟨count, hmissed, hmet⟩ := machine.play_await_met moment rest hending
    exact ⟨count, hmissed, .inl hmet⟩
  | timedOut expired =>
    obtain ⟨count, hmissed, hpos, hseen, hsource, rfl⟩ := Wait.poll_timedOut hending
    refine ⟨count, hmissed, .inr (.inl ⟨hpos, ?_⟩)⟩
    simp [play, Script.run, hending, hseen, hsource, asked, Moment.reads, Moment.append]
  | unanswered =>
    obtain ⟨count, hmissed, hseen, hsource⟩ := Wait.poll_unanswered hending
    refine ⟨count, hmissed, .inr (.inr ?_)⟩
    simp [play, Script.run, hending, hseen, hsource, asked, Moment.reads, Moment.append]

theorem play_config (register : Register) (rest : UInt32 → Script α) :
    let value := machine.hardware.config register moment.world
    machine.play (.config register rest) moment =
      machine.play (rest value) (moment.append [.config register value]) := by
  simp only [play, Script.run, Run.after, Moment.append, List.append_assoc]

theorem play_pin (high : Bool) (rest : Script α) :
    machine.play (.pin high rest) moment =
      if (machine.hardware.drive high moment.world).1 then
        machine.play rest (moment.drive machine.hardware high)
      else (.failed (.config .pinRefused), moment.drive machine.hardware high) := by
  simp only [play, Script.run, Moment.drive]
  rcases machine.hardware.drive high moment.world with ⟨taken, later⟩
  cases taken with
  | true => simp [Run.after, Moment.append]
  | false => simp [Moment.append]

theorem play_pause (ms : Nat) (rest : Script α) :
    machine.play (.pause ms rest) moment = machine.play rest (moment.append [.pause ms]) := by
  simp only [play, Script.run, Run.after, Moment.append, List.append_assoc]

@[simp] theorem play_look (rest : State → Script α) :
    machine.play (.look rest) moment = machine.play (rest moment.state) moment := rfl

@[simp] theorem play_store (state : State) (rest : Script α) :
    machine.play (.store state rest) moment = machine.play rest { moment with state } := rfl

theorem play_bind (s : Script α) (next : α → Script β) :
    machine.play (s.bind next) moment =
      match machine.play s moment with
      | (.ok value, later) => machine.play (next value) later
      | (.failed error, later) => (.failed error, later)
      | (.stalled, later) => (.stalled, later) := by
  simp only [play, Script.run_bind, Run.andThen]
  cases (s.run machine.hardware machine.budget machine.patience moment.state moment.world).ending with
  | ok value => simp [Run.after]
  | failed error => rfl
  | stalled => rfl

theorem play_map (s : Script α) (f : α → β) :
    machine.play (s.bind fun value => .done (f value)) moment =
      ((machine.play s moment).1.map f, (machine.play s moment).2) := by
  rw [play_bind]
  rcases machine.play s moment with ⟨ending, later⟩
  cases ending with
  | ok value => exact machine.play_done later (f value)
  | failed error => rfl
  | stalled => rfl

end Machine

end BootLogo
