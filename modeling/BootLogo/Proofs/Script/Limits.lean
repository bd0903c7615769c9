import BootLogo.Proofs.Script.Play

/-!
# What a script may do

* `Limits`: what a script is held to; `Within`: it keeps to that on every branch, whatever the hardware
  answers. One rule for each way to put scripts together.
* `Step`: one thing that happens while such a script is played. What every step keeps, a whole run keeps
  (`Within.keeps`).
* `Within.happened`: all that happens in a run is allowed, or shown by the hardware, or logged.
* `Within.failed`: a run that fails does so with an allowed error, or because the hardware did not answer.
-/

namespace BootLogo

open Compositor (State)

variable {σ α β : Type}

/-- What the hardware shows of itself, and what is logged. -/
def Event.Passive : Event → Prop
  | .status _ | .pinRefused _ | .note _ => True
  | _ => False

structure Limits where
  /-- What may happen apart from passive events. -/
  event : Event → Prop
  /-- Which state may replace which. -/
  change : State → State → Prop
  error : Error → Prop

instance : LE Limits where
  le limits wider := (∀ event, limits.event event → wider.event event) ∧
    (∀ state later, limits.change state later → wider.change state later) ∧
    ∀ error, limits.error error → wider.error error

theorem Limits.trans {limits wider widest : Limits} (h : limits ≤ wider) (hwider : wider ≤ widest) :
    limits ≤ widest :=
  ⟨fun event hevent => hwider.1 event (h.1 event hevent),
    fun state later hchange => hwider.2.1 state later (h.2.1 state later hchange),
    fun error herror => hwider.2.2 error (h.2.2 error herror)⟩

namespace Script

/-- On every branch, from this state on, the script keeps to the limits. -/
def Within (limits : Limits) : Script α → State → Prop
  | .done _, _ => True
  | .fail error, _ => limits.error error
  | .note _ rest, state => rest.Within limits state
  | .call step rest, state => limits.event (.call step) ∧ rest.Within limits state
  | .await condition rest, state => limits.event (.await condition) ∧ rest.Within limits state
  | .config register rest, state =>
    ∀ value, limits.event (.config register value) ∧ (rest value).Within limits state
  | .pin high rest, state => limits.event (.pin high) ∧ rest.Within limits state
  | .pause ms rest, state => limits.event (.pause ms) ∧ rest.Within limits state
  | .look rest, state => (rest state).Within limits state
  | .store later rest, state => limits.change state later ∧ rest.Within limits later

namespace Within

variable {limits wider : Limits} {s t : Script α} {state : State}

theorem mono (h : limits ≤ wider) (hs : s.Within limits state) : s.Within wider state := by
  obtain ⟨hevent, hchange, herror⟩ := h
  induction s generalizing state with
  | done value => trivial
  | fail error => exact herror error hs
  | note entries rest ih => exact ih hs
  | call step rest ih => exact ⟨hevent _ hs.1, ih hs.2⟩
  | await condition rest ih => exact ⟨hevent _ hs.1, ih hs.2⟩
  | config register rest ih => exact fun value => ⟨hevent _ (hs value).1, ih value (hs value).2⟩
  | pin high rest ih => exact ⟨hevent _ hs.1, ih hs.2⟩
  | pause ms rest ih => exact ⟨hevent _ hs.1, ih hs.2⟩
  | look rest ih => exact ih state hs
  | store later rest ih => exact ⟨hchange _ _ hs.1, ih hs.2⟩

theorem bind {next : α → Script β} (hs : s.Within limits state)
    (hnext : ∀ value later, (next value).Within limits later) : (s.bind next).Within limits state := by
  induction s generalizing state with
  | done value => exact hnext value state
  | fail error => exact hs
  | note entries rest ih => exact ih hs
  | call step rest ih => exact ⟨hs.1, ih hs.2⟩
  | await condition rest ih => exact ⟨hs.1, ih hs.2⟩
  | config register rest ih => exact fun value => ⟨(hs value).1, ih value (hs value).2⟩
  | pin high rest ih => exact ⟨hs.1, ih hs.2⟩
  | pause ms rest ih => exact ⟨hs.1, ih hs.2⟩
  | look rest ih => exact ih state hs
  | store later rest ih => exact ⟨hs.1, ih hs.2⟩

theorem each {body : α → Script Unit} {steps : List α}
    (hbody : ∀ a ∈ steps, ∀ later, (body a).Within limits later) :
    (each body steps).Within limits state := by
  induction steps generalizing state with
  | nil => trivial
  | cons a rest ih =>
    have hrest (later : State) : (Script.each body rest).Within limits later :=
      ih fun b hb => hbody b (List.mem_cons_of_mem a hb)
    exact (hbody a List.mem_cons_self state).bind fun _ => hrest

theorem cond {condition : Prop} [Decidable condition] (hs : condition → s.Within limits state)
    (ht : ¬ condition → t.Within limits state) :
    (if condition then s else t).Within limits state := by
  split
  · exact hs ‹_›
  · exact ht ‹_›

theorem when {condition : Prop} [Decidable condition] {s : Script Unit}
    (hs : condition → s.Within limits state) :
    (if condition then s else pure ()).Within limits state :=
  cond hs fun _ => trivial

theorem ofExcept {result : Except Error α} (h : ∀ error, result = .error error → limits.error error) :
    (ofExcept result).Within limits state := by
  cases result with
  | ok value => trivial
  | error error => exact h error rfl

end Within

end Script

/-! ## Runs -/

/-- One thing that happens while a script within the limits is played. -/
inductive Step (hardware : Hardware σ) (limits : Limits) : Moment σ → Moment σ → Prop
  | note (moment : Moment σ) (entry : Log.Entry) :
    Step hardware limits moment (moment.append [.note entry])
  | call (moment : Moment σ) {call : Call} (h : limits.event (.call call)) :
    Step hardware limits moment (moment.call hardware call)
  | await (moment : Moment σ) {condition : Condition} (h : limits.event (.await condition)) :
    Step hardware limits moment (moment.append [.await condition])
  | read (moment : Moment σ) : Step hardware limits moment (moment.reads hardware 1)
  | config (moment : Moment σ) {register : Register} {value : UInt32}
    (h : limits.event (.config register value)) :
    Step hardware limits moment (moment.append [.config register value])
  | pin (moment : Moment σ) {high : Bool} (h : limits.event (.pin high)) :
    Step hardware limits moment (moment.drive hardware high)
  | pause (moment : Moment σ) {ms : Nat} (h : limits.event (.pause ms)) :
    Step hardware limits moment (moment.append [.pause ms])
  | store (moment : Moment σ) {later : State} (h : limits.change moment.state later) :
    Step hardware limits moment { moment with state := later }

/-- What has happened is allowed or passive. -/
def Moment.Shows (limits : Limits) (moment : Moment σ) : Prop :=
  ∀ event ∈ moment.trace, limits.event event ∨ event.Passive

theorem Moment.Shows.append {limits : Limits} {moment : Moment σ} (h : moment.Shows limits)
    {world : σ} {event : Event} (hevent : limits.event event ∨ event.Passive) :
    ({ moment with world }.append [event]).Shows limits := by
  intro other hother
  rcases List.mem_append.1 hother with hother | hother
  · exact h other hother
  · rw [List.mem_singleton.1 hother]
    exact hevent

namespace Script.Within

variable {machine : Machine σ} {limits : Limits} {s : Script α} {moment : Moment σ}

/-- **What every step keeps, a whole run keeps**, also one that fails. -/
theorem keeps {inv : Moment σ → Prop}
    (hstep : ∀ {moment later}, Step machine.hardware limits moment later → inv moment → inv later)
    (hs : s.Within limits moment.state) (h : inv moment) : inv (machine.play s moment).2 := by
  have hnotes (entries : Log) {moment : Moment σ} (h : inv moment) :
      inv (moment.append (entries.map Event.note)) := by
    induction entries generalizing moment with
    | nil => rwa [List.map_nil, Moment.append_nil]
    | cons entry entries ih =>
      have hnext := ih (hstep (.note moment entry) h)
      rwa [Moment.append_append] at hnext
  have hreads (count : Nat) {moment : Moment σ} (h : inv moment) :
      inv (moment.reads machine.hardware count) := by
    induction count generalizing moment with
    | zero => rwa [Moment.reads_zero]
    | succ count ih =>
      rw [Moment.reads_succ]
      exact ih (hstep (.read moment) h)
  induction s generalizing moment with
  | done value => rwa [Machine.play_done]
  | fail error => rwa [Machine.play_fail]
  | note entries rest ih =>
    rw [Machine.play_note]
    exact ih hs (hnotes entries h)
  | call step rest ih =>
    rw [Machine.play_call]
    exact ih hs.2 (hnotes _ (hstep (.call moment hs.1) h))
  | await condition rest ih =>
    have hasked := hstep (.await moment hs.1) h
    obtain ⟨count, -, ⟨-, hplay⟩ | ⟨-, hplay⟩ | hplay⟩ :=
      machine.play_await moment condition rest
    · rw [hplay]
      exact ih hs.2 (hreads (count + 1) hasked)
    · rw [hplay]
      exact hreads count hasked
    · rw [hplay]
      exact hreads count hasked
  | config register rest ih =>
    obtain ⟨hevent, hrest⟩ := hs (machine.hardware.config register moment.world)
    rw [Machine.play_config]
    exact ih _ hrest (hstep (.config moment hevent) h)
  | pin high rest ih =>
    have hdriven := hstep (.pin moment hs.1) h
    rw [Machine.play_pin]
    split
    · exact ih hs.2 hdriven
    · exact hdriven
  | pause ms rest ih =>
    rw [Machine.play_pause]
    exact ih hs.2 (hstep (.pause moment hs.1) h)
  | look rest ih => exact ih moment.state hs h
  | store later rest ih => exact ih hs.2 (hstep (.store moment hs.1) h)

theorem happened (machine : Machine σ) (moment : Moment σ) (hs : s.Within limits moment.state)
    (h : moment.Shows limits) :
    (machine.play s moment).2.Shows limits := by
  refine hs.keeps (fun {moment later} hstep h => ?_) h
  cases hstep with
  | note entry => exact h.append (.inr trivial)
  | call hcall => exact h.append (.inl hcall)
  | await hawait => exact h.append (.inl hawait)
  | read => exact h.append (.inr trivial)
  | config hconfig => exact h.append (.inl hconfig)
  | pin hpin =>
    refine h.append ?_
    split
    · exact .inl hpin
    · exact .inr trivial
  | pause hpause => exact h.append (.inl hpause)
  | store hchange => exact h

theorem failed {error : Error} (h : (machine.play s moment).1 = .failed error)
    (hs : s.Within limits moment.state) :
    limits.error error ∨ error = .config .pinRefused ∨
      ∃ power expired, error = .timeout power expired := by
  induction s generalizing moment with
  | done value =>
    rw [Machine.play_done] at h
    cases h
  | fail reason =>
    rw [Machine.play_fail] at h
    cases h
    exact .inl hs
  | note entries rest ih =>
    rw [Machine.play_note] at h
    exact ih h hs
  | call step rest ih =>
    rw [Machine.play_call] at h
    exact ih h hs.2
  | await condition rest ih =>
    obtain ⟨count, -, ⟨-, hplay⟩ | ⟨-, hplay⟩ | hplay⟩ :=
      machine.play_await moment condition rest
    · rw [hplay] at h
      exact ih h hs.2
    · rw [hplay] at h
      cases h
      exact .inr (.inr ⟨_, _, rfl⟩)
    · rw [hplay] at h
      cases h
  | config register rest ih =>
    rw [Machine.play_config] at h
    exact ih _ h (hs _).2
  | pin high rest ih =>
    rw [Machine.play_pin] at h
    split at h
    · exact ih h hs.2
    · cases h
      exact .inr (.inl rfl)
  | pause ms rest ih =>
    rw [Machine.play_pause] at h
    exact ih h hs.2
  | look rest ih => exact ih moment.state h hs
  | store later rest ih =>
    rw [Machine.play_store] at h
    exact ih h hs.2

end Script.Within

end BootLogo
