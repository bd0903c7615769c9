import BootLogo.Proofs.Script.Limits

/-!
# What holds after a script

A `Triple` says what holds once a script has ended well and once it has failed, given what holds before it
is played. There is one rule for each way to put scripts together; `Triple.wait` says what a wait has
read, and a script within limits whose steps keep something keeps it (`Script.Within.triple`). An error is
`OfHardware` if the script has no part in it.
-/

namespace BootLogo

open Compositor (State)

variable {σ α β : Type}

/-- Played from a moment in `before`, the script ends well in `after`, or it fails in `stop`, or it does
not end. -/
def Triple (machine : Machine σ) (before : Moment σ → Prop) (s : Script α)
    (after : α → Moment σ → Prop) (stop : Error → Moment σ → Prop) : Prop :=
  ∀ moment, before moment →
    match machine.play s moment with
    | (.ok value, later) => after value later
    | (.failed error, later) => stop error later
    | (.stalled, _) => True

variable {machine : Machine σ} {before : Moment σ → Prop} {stop : Error → Moment σ → Prop}

namespace Triple

variable {s : Script α} {after : α → Moment σ → Prop}

theorem of_ok (h : Triple machine before s after stop) {moment : Moment σ} (hbefore : before moment)
    {value : α} (hok : (machine.play s moment).1 = .ok value) :
    after value (machine.play s moment).2 := by
  have hplay := h moment hbefore
  generalize machine.play s moment = played at hplay hok
  obtain ⟨ending, later⟩ := played
  cases hok
  exact hplay

theorem of_failed (h : Triple machine before s after stop) {moment : Moment σ} (hbefore : before moment)
    {error : Error} (hfailed : (machine.play s moment).1 = .failed error) :
    stop error (machine.play s moment).2 := by
  have hplay := h moment hbefore
  generalize machine.play s moment = played at hplay hfailed
  obtain ⟨ending, later⟩ := played
  cases hfailed
  exact hplay

theorem of_play
    (hok : ∀ moment value, before moment → (machine.play s moment).1 = .ok value →
      after value (machine.play s moment).2)
    (hfailed : ∀ moment error, before moment → (machine.play s moment).1 = .failed error →
      stop error (machine.play s moment).2) : Triple machine before s after stop := by
  intro moment hbefore
  have hplay := hok moment
  have hstop := hfailed moment
  generalize machine.play s moment = played at hplay hstop ⊢
  obtain ⟨ending, later⟩ := played
  cases ending with
  | ok value => exact hplay value hbefore rfl
  | failed error => exact hstop error hbefore rfl
  | stalled => trivial

theorem of_ended {inv : Moment σ → Prop} (h : Triple machine inv s (fun _ => inv) fun _ => inv)
    {moment : Moment σ} (hinv : inv moment) (hended : (machine.play s moment).1 ≠ .stalled) :
    inv (machine.play s moment).2 := by
  cases hending : (machine.play s moment).1 with
  | ok value => exact h.of_ok hinv hending
  | failed error => exact h.of_failed hinv hending
  | stalled => exact absurd hending hended

theorem weaken {earlier : Moment σ → Prop} {wider : α → Moment σ → Prop}
    {halt : Error → Moment σ → Prop} (h : Triple machine before s after stop)
    (hbefore : ∀ moment, earlier moment → before moment)
    (hafter : ∀ value moment, after value moment → wider value moment)
    (hstop : ∀ error moment, stop error moment → halt error moment) :
    Triple machine earlier s wider halt := by
  intro moment hearlier
  have hplay := h moment (hbefore moment hearlier)
  generalize machine.play s moment = played at hplay ⊢
  obtain ⟨ending, later⟩ := played
  cases ending with
  | ok value => exact hafter value later hplay
  | failed error => exact hstop error later hplay
  | stalled => trivial

theorem any : Triple machine (fun _ => True) s (fun _ _ => True) fun _ _ => True := by
  intro moment _
  split <;> trivial

theorem halting {halt : Error → Moment σ → Prop} (h : Triple machine before s after stop)
    (hstop : ∀ error moment, stop error moment → halt error moment) :
    Triple machine before s after halt :=
  h.weaken (fun _ hbefore => hbefore) (fun _ _ hafter => hafter) hstop

theorem and {earlier : Moment σ → Prop} {other : α → Moment σ → Prop} {halt : Error → Moment σ → Prop}
    (h : Triple machine before s after stop) (hother : Triple machine earlier s other halt) :
    Triple machine (fun moment => before moment ∧ earlier moment) s
      (fun value moment => after value moment ∧ other value moment)
      fun error moment => stop error moment ∧ halt error moment := by
  intro moment ⟨hbefore, hearlier⟩
  have hplay := h moment hbefore
  have hplayOther := hother moment hearlier
  generalize machine.play s moment = played at hplay hplayOther ⊢
  obtain ⟨ending, later⟩ := played
  cases ending with
  | ok value => exact ⟨hplay, hplayOther⟩
  | failed error => exact ⟨hplay, hplayOther⟩
  | stalled => trivial

theorem done {value : α} (h : ∀ moment, before moment → after value moment) :
    Triple machine before (.done value) after stop := by
  intro moment hbefore
  rw [Machine.play_done]
  exact h moment hbefore

theorem ofExcept {ε : Type} {result : Except ε α} {wrap : ε → Error} {value : α} (h : result = .ok value) :
    Triple machine before (Script.ofExcept (result.mapError wrap)) (fun _ => before) stop := by
  rw [h]
  exact done fun _ h => h

theorem bind {mid : α → Moment σ → Prop} {next : α → Script β} {final : β → Moment σ → Prop}
    (hs : Triple machine before s mid stop)
    (hnext : ∀ value, Triple machine (mid value) (next value) final stop) :
    Triple machine before (s.bind next) final stop := by
  intro moment hbefore
  have hplay := hs moment hbefore
  rw [Machine.play_bind]
  generalize machine.play s moment = played at hplay ⊢
  obtain ⟨ending, later⟩ := played
  cases ending with
  | ok value => exact hnext value later hplay
  | failed error => exact hplay
  | stalled => trivial

theorem cond {condition : Prop} [Decidable condition] {t : Script α}
    (hs : condition → Triple machine before s after stop)
    (ht : ¬ condition → Triple machine before t after stop) :
    Triple machine before (if condition then s else t) after stop := by
  split
  · exact hs ‹_›
  · exact ht ‹_›

theorem look {rest : State → Script α}
    (h : ∀ state, Triple machine (fun moment => before moment ∧ moment.state = state) (rest state)
      after stop) : Triple machine before (.look rest) after stop :=
  fun moment hbefore => h moment.state moment ⟨hbefore, rfl⟩

variable {post : Moment σ → Prop}

theorem note {entries : Log} {rest : Script α}
    (hbefore : ∀ moment, before moment → post (moment.append (entries.map Event.note)))
    (hrest : Triple machine post rest after stop) :
    Triple machine before (.note entries rest) after stop := by
  intro moment h
  rw [Machine.play_note]
  exact hrest _ (hbefore moment h)

theorem say {entry : Log.Entry} (h : ∀ moment, before moment → post (moment.append [.note entry])) :
    Triple machine before (Script.say entry) (fun _ => post) stop := by
  intro moment hbefore
  rw [Script.say, Machine.play_note, Machine.play_done]
  exact h moment hbefore

theorem perform {call : Call}
    (h : ∀ moment, before moment → post ((moment.call machine.hardware call).append
      ((machine.hardware.remarks call).map Event.note))) :
    Triple machine before (Script.perform call) (fun _ => post) stop := by
  intro moment hbefore
  rw [Script.perform, Machine.play_call, Machine.play_done]
  exact h moment hbefore

theorem modify {change : State → State}
    (h : ∀ moment, before moment → post { moment with state := change moment.state }) :
    Triple machine before (Script.modify change) (fun _ => post) stop := by
  intro moment hbefore
  rw [Script.modify, Machine.play_look, Machine.play_store, Machine.play_done]
  exact h moment hbefore

theorem wait {condition : Condition}
    (hmet : ∀ moment count, before moment →
      let asked := moment.append [.await condition]
      condition.holds
          (machine.hardware.status (asked.reads machine.hardware count).world).1 = true →
        post (asked.reads machine.hardware (count + 1)))
    (hexpired : ∀ moment count, before moment → 0 < count →
      let asked := moment.append [.await condition]
      (∀ status ∈ (Wait.readings machine.hardware.status count moment.world).1,
          condition.holds status = false) →
        stop (.timeout moment.state.power ⟨condition, count⟩) (asked.reads machine.hardware count)) :
    Triple machine before (Script.wait condition) (fun _ => post) stop := by
  intro moment hbefore
  rw [Script.wait]
  obtain ⟨count, hmissed, ⟨hholds, hplay⟩ | ⟨hpos, hplay⟩ | hplay⟩ :=
    machine.play_await moment condition (.done ())
  · rw [hplay, Machine.play_done]
    exact hmet moment count hbefore hholds
  · rw [hplay]
    exact hexpired moment count hbefore hpos hmissed
  · rw [hplay]
    trivial

theorem each {body : β → Script Unit} (inv : List β → Moment σ → Prop) (steps : List β)
    (hbody : ∀ front step back, steps = front ++ step :: back →
      Triple machine (inv front) (body step) (fun _ => inv (front ++ [step])) stop) :
    Triple machine (inv []) (Script.each body steps) (fun _ => inv steps) stop := by
  have hrest (back : List β) : ∀ front, steps = front ++ back →
      Triple machine (inv front) (Script.each body back) (fun _ => inv steps) stop := by
    induction back with
    | nil =>
      intro front hsteps
      rw [List.append_nil] at hsteps
      rw [hsteps]
      exact done fun _ h => h
    | cons step back ih =>
      intro front hsteps
      have hlater := ih (front ++ [step]) (by rw [hsteps, List.append_assoc]; rfl)
      exact (hbody front step back hsteps).bind fun _ => hlater
  exact hrest steps [] rfl

end Triple

theorem Script.Within.triple {limits : Limits} {s : Script α} {inv : Moment σ → Prop}
    (hs : ∀ state, s.Within limits state)
    (hstep : ∀ {moment later}, Step machine.hardware limits moment later → inv moment → inv later) :
    Triple machine inv s (fun _ => inv) (fun _ => inv) := by
  intro moment h
  have hkept := (hs moment.state).keeps hstep h
  generalize machine.play s moment = played at hkept ⊢
  obtain ⟨ending, later⟩ := played
  cases ending with
  | ok value => exact hkept
  | failed error => exact hkept
  | stalled => trivial

/-! ## Scripts that only the hardware can end early -/

/-- The error is that the hardware did not answer, or that it refused. -/
def Error.OfHardware (error : Error) : Prop :=
  error = .config .pinRefused ∨ ∃ power expired, error = .timeout power expired

theorem Script.Within.ofHardware {limits : Limits} {s : Script α} (hs : ∀ state, s.Within limits state)
    (herror : ∀ error, ¬ limits.error error) :
    Triple machine before s (fun _ _ => True) fun error _ => error.OfHardware := by
  refine .of_play (fun _ _ _ _ => trivial) fun moment error _ hfailed => ?_
  exact ((hs moment.state).failed hfailed).resolve_left (herror error)

theorem Script.Plays.triple {s : Script α} {state later : State} {value : α} {calls more : List Call}
    (hs : s.Plays state value later more) :
    Triple machine (fun moment => moment.state = state ∧ moment.trace.calls = calls) s
      (fun result moment => result = value ∧ moment.state = later ∧ moment.trace.calls = calls ++ more)
      fun error _ => error.OfHardware := by
  refine .of_play ?_ ?_
  · rintro moment result ⟨rfl, rfl⟩ hok
    obtain ⟨rfl, hstate, hmore⟩ :=
      hs.of_ok machine.hardware machine.budget machine.patience moment.world result hok
    refine ⟨rfl, hstate, ?_⟩
    rw [← hmore]
    exact Trace.calls_append _ _
  · rintro moment error ⟨rfl, rfl⟩ hfailed
    have hending : (s.run machine.hardware machine.budget machine.patience moment.state
        moment.world).ending = .failed error := hfailed
    rcases hs.ends machine.hardware machine.budget machine.patience moment.world with
      ⟨hok, -⟩ | ⟨hwait, -⟩
    · rw [hending] at hok
      cases hok
    · rw [hending] at hwait
      exact .inr hwait

end BootLogo
