import BootLogo.Proofs.Compositor.Footprint
import BootLogo.Proofs.Script.Triple

/-!
# The time a panel needs to power up

Before the backlight first comes on, `light` lets some time pass. Whether it is the first time is remembered.

* `calm`: no time passes, and what is remembered of the backlight stays. All parts of a sequence are so but
  taking the controller down and driving the backlight.
* `Relights`: what a script does to what is remembered, if it ends well. Otherwise it leaves it alone.
* `play_light`, `play_display`: how a backlight is lit and a picture displayed, with the time in between.
-/

namespace BootLogo

open Compositor (State)
open Script

variable {σ : Type}

namespace Trace

theorem pauses_append (earlier later : Trace) :
    pauses (earlier ++ later) = pauses earlier ++ pauses later :=
  List.filterMap_append

theorem pauses_notes (entries : Log) : pauses (entries.map Event.note) = [] := by
  induction entries with
  | nil => rfl
  | cons entry entries ih => exact ih

end Trace

namespace Compositor

variable {compositor : Compositor} {machine : Machine σ} {moment later : Moment σ} {level : UInt8}
  {state : State}

/-! ## No time passes -/

/-- No time passes. -/
def unpaused : Limits where
  event
    | .pause _ => False
    | _ => True
  change _ _ := True
  error _ := True

/-- No time passes, and the backlight counts as lit or dark as it did. -/
def calm : Limits where
  event
    | .pause _ => False
    | _ => True
  change state later := later.lit = state.lit
  error _ := True

theorem calm_le_unpaused : calm ≤ unpaused :=
  ⟨fun _ hevent => hevent, fun _ _ _ => trivial, fun _ _ => trivial⟩

theorem programming_le_calm (layer : Layer) (refusals : Error → Prop) :
    compositor.programming layer refusals ≤ calm := by
  refine ⟨fun event hevent => ?_, fun _ _ hchange => hchange.2.1, fun _ _ => trivial⟩
  cases event with
  | pause ms => exact hevent
  | _ => trivial

theorem pauses_of_step {hardware : Hardware σ} (h : Step hardware unpaused moment later) :
    later.trace.pauses = moment.trace.pauses := by
  have hone {event : Event} (hevent : ∀ ms, event ≠ .pause ms) :
      Trace.pauses (moment.trace ++ [event]) = moment.trace.pauses := by
    rw [Trace.pauses_append]
    cases event with
    | pause ms => exact absurd rfl (hevent ms)
    | _ => exact List.append_nil _
  cases h with
  | pause hpause => exact hpause.elim
  | store hchange => rfl
  | pin hpin =>
    refine hone ?_
    split <;> exact fun _ => Event.noConfusion
  | _ => exact hone fun _ => Event.noConfusion

theorem pauses_play {α : Type} {s : Script α} (hs : s.Within unpaused moment.state) :
    (machine.play s moment).2.trace.pauses = moment.trace.pauses :=
  hs.keeps (fun {_ later} hstep (h : _ = moment.trace.pauses) =>
    show later.trace.pauses = _ from (pauses_of_step hstep).trans h) rfl

theorem lit_of_step {hardware : Hardware σ} (h : Step hardware calm moment later) :
    later.state.lit = moment.state.lit := by
  cases h with
  | store hchange => exact hchange
  | _ => rfl

theorem lit_play {α : Type} {s : Script α} (hs : s.Within calm moment.state) :
    (machine.play s moment).2.state.lit = moment.state.lit :=
  hs.keeps (fun {_ later} hstep (h : _ = moment.state.lit) =>
    show later.state.lit = _ from (lit_of_step hstep).trans h) rfl

/-! ## The parts of a sequence -/

theorem timingWords_calm :
    (Script.ofExcept (compositor.timingWords.mapError Error.config)).Within calm state :=
  .ofExcept fun _ _ => trivial

theorem programTiming_calm : compositor.programTiming.Within calm state := by
  refine .bind compositor.timingWords_calm fun _ _ => .bind (.each fun write _ _ => ?_) fun _ _ => trivial
  exact (compositor.request_orderly trivial trivial).within

theorem bringUp_calm : compositor.bringUp.Within calm state := by
  refine .each fun stage _ later => .bind ?_ fun _ _ => ⟨rfl, trivial⟩
  exact (compositor.raise_orderly trivial trivial trivial).within

theorem showBase_calm (mode : CommitMode) : (compositor.showBase mode).Within calm state :=
  (compositor.showBase_orderly mode).within.mono (programming_le_calm .base fun _ => True)

theorem showLayer_calm (frame : Frame) (placement : Placement) (mode : CommitMode) :
    (compositor.showLayer frame placement mode).Within calm state :=
  (compositor.showLayer_orderly frame mode fun _ _ => trivial).within.mono
    (programming_le_calm .heo fun _ => True)

theorem commit_calm (layer : Layer) : (compositor.commit layer).Within calm state :=
  (compositor.commit_orderly layer).within.mono (programming_le_calm layer fun _ => True)

/-- Drives the backlight and remembers nothing. -/
def drive (compositor : Compositor) (level : UInt8) : Script Unit :=
  if compositor.board.backlight = .pwm then compositor.synced (Backlight.set .pwm level)
  else Backlight.set compositor.board.backlight level

theorem setBacklight_eq (compositor : Compositor) (level : UInt8) :
    compositor.setBacklight level = (compositor.drive level).bind fun _ =>
      if level ≠ 0 then Script.modify fun state => { state with lit := true } else .done () := by
  rw [setBacklight, drive]
  cases compositor.board.backlight <;> rfl

theorem drive_calm : (compositor.drive level).Within calm state := by
  have hset (kind : BacklightKind) (later : State) : (Backlight.set kind level).Within calm later := by
    cases kind with
    | pwm => exact fun value => ⟨trivial, trivial, trivial⟩
    | gpio => exact ⟨trivial, trivial⟩
  have hwait (condition : Prop) [Decidable condition] (later : State) :
      (if condition then wait inSync else pure ()).Within calm later := .when fun _ => ⟨trivial, trivial⟩
  refine .cond (fun _ => ?_) fun _ => hset _ _
  exact .bind (hwait _ _) fun _ _ => .bind (hset _ _) fun _ => hwait _

theorem lowerAll_calm : (Script.each (fun stage => (compositor.lower stage).bind fun _ =>
    acknowledged stage "down" (compositor.powerBelow stage)) compositor.stages.reverse).Within calm
      state := by
  refine .each fun stage _ later => .bind ?_ fun _ _ => ⟨rfl, trivial⟩
  exact (compositor.lower_orderly trivial trivial trivial).within

/-! ## What is remembered -/

/-- What becomes of `lit` if the script ends well; otherwise it stays. -/
structure Relights (s : Script Unit) (leaves : Bool → Bool) : Prop where
  ends : ∀ {σ : Type} (machine : Machine σ) (moment : Moment σ),
    (machine.play s moment).2.state.lit =
      match (machine.play s moment).1 with
      | .ok _ => leaves moment.state.lit
      | _ => moment.state.lit

variable {s t : Script Unit} {leaves : Bool → Bool}

theorem Relights.of_calm (hs : ∀ state, s.Within calm state) : Relights s id := by
  constructor
  intro σ machine moment
  rw [lit_play (hs moment.state)]
  split <;> rfl

theorem Relights.after (hs : ∀ state, s.Within calm state) (ht : Relights t leaves) :
    Relights (s.bind fun _ => t) leaves := by
  constructor
  intro σ machine moment
  have hlit : (machine.play s moment).2.state.lit = moment.state.lit := lit_play (hs moment.state)
  rw [Machine.play_bind]
  generalize machine.play s moment = played at hlit
  obtain ⟨ending, later⟩ := played
  rw [← show later.state.lit = moment.state.lit from hlit]
  cases ending with
  | ok value => exact ht.ends machine later
  | failed error => rfl
  | stalled => rfl

theorem Relights.modify {change : State → State} (h : ∀ state, (change state).lit = leaves state.lit) :
    Relights (Script.modify change) leaves := by
  constructor
  intro σ machine moment
  rw [Script.modify, Machine.play_look, Machine.play_store, Machine.play_done]
  exact h moment.state

theorem tearDown_relights : Relights compositor.tearDown fun _ => false :=
  .after (fun _ => lowerAll_calm) (.modify fun _ => rfl)

theorem setBacklight_relights (level : UInt8) :
    Relights (compositor.setBacklight level) fun lit => decide (level ≠ 0) || lit := by
  rw [setBacklight_eq]
  refine .after (fun _ => drive_calm) ?_
  by_cases hlevel : level = 0
  · simp only [hlevel, ne_eq, not_true_eq_false, if_false, decide_false, Bool.false_or]
    exact .of_calm fun _ => trivial
  · simp only [ne_eq, hlevel, not_false_eq_true, if_true, decide_true, Bool.true_or]
    exact .modify fun _ => rfl

theorem setBacklight_unpaused : (compositor.setBacklight level).Within unpaused state := by
  rw [setBacklight_eq]
  exact .bind (drive_calm.mono calm_le_unpaused) fun _ _ =>
    .cond (fun _ => ⟨trivial, trivial⟩) fun _ => trivial

theorem tearDown_unpaused : compositor.tearDown.Within unpaused state :=
  .bind (lowerAll_calm.mono calm_le_unpaused) fun _ _ => ⟨trivial, trivial⟩

theorem init_unpaused : compositor.init.Within unpaused state := by
  refine .bind (timingWords_calm.mono calm_le_unpaused) fun _ _ => .bind tearDown_unpaused fun _ _ => ?_
  refine .bind (programTiming_calm.mono calm_le_unpaused) fun _ _ => ?_
  refine .bind (bringUp_calm.mono calm_le_unpaused) fun _ _ => .bind setBacklight_unpaused fun _ _ => ?_
  exact (showBase_calm _).mono calm_le_unpaused

/-! ## Lighting and displaying -/

/-- What `light` does before it drives the backlight: it lets the panel power up, if that is due. -/
def powerUp (compositor : Compositor) (level : UInt8) (lit : Bool) : Trace :=
  let ms := compositor.board.logo.backlightDelayMs
  if level ≠ 0 ∧ !lit ∧ 0 < ms then [.note (.debug s!"lcdc: backlight in {ms} ms"), .pause ms] else []

theorem play_light (machine : Machine σ) (level : UInt8) (moment : Moment σ) :
    machine.play (compositor.light level) moment =
      machine.play (compositor.setBacklight level)
        (moment.append (compositor.powerUp level moment.state.lit)) := by
  have hlight : compositor.light level = .look fun state =>
      let ms := compositor.board.logo.backlightDelayMs
      if level ≠ 0 ∧ !state.lit ∧ 0 < ms then
        .note [.debug s!"lcdc: backlight in {ms} ms"] (.pause ms (compositor.setBacklight level))
      else compositor.setBacklight level := rfl
  rw [hlight, Machine.play_look, powerUp]
  dsimp only
  split
  · rw [Machine.play_note, Machine.play_pause, Moment.append_append]
    rfl
  · rw [Moment.append_nil]

theorem light_relights (level : UInt8) :
    Relights (compositor.light level) fun lit => decide (level ≠ 0) || lit := by
  constructor
  intro σ machine moment
  rw [play_light]
  exact (setBacklight_relights level).ends machine _

/-- The overlay of a picture that is displayed. -/
def showFrame (compositor : Compositor) (frame : Frame) : Script Unit :=
  compositor.showLayer frame (compositor.place frame.size) compositor.board.logo.commit

theorem display_eq (compositor : Compositor) (frame : Frame) :
    compositor.display frame =
      (Script.ofExcept ((compositor.place frame.size).validate.mapError Error.geometry)).bind fun _ =>
        (compositor.showFrame frame).bind fun _ =>
          (compositor.light compositor.board.logo.brightness).bind fun _ =>
            .done (compositor.place frame.size) :=
  rfl

theorem play_display (machine : Machine σ) (frame : Frame) (moment : Moment σ) :
    let shown := machine.play (compositor.showFrame frame) moment
    let lit := machine.play (compositor.light compositor.board.logo.brightness) shown.2
    (machine.play (compositor.display frame) moment).2 =
      match shown.1 with
      | .ok _ => lit.2
      | _ => shown.2 := by
  intro shown lit
  rw [display_eq]
  cases hplace : (compositor.place frame.size).validate with
  | error mistake =>
    have hshown : shown = (.failed (.geometry mistake), moment) := by
      show machine.play (compositor.showLayer ..) moment = _
      rw [showLayer, hplace]
      exact machine.play_fail moment _
    rw [hshown]
    exact congrArg Prod.snd (machine.play_fail moment _)
  | ok _ =>
    change (machine.play ((compositor.showFrame frame).bind _) moment).2 = _
    rw [Machine.play_bind]
    rcases hshown : machine.play (compositor.showFrame frame) moment with ⟨ending, later⟩
    simp only [shown, lit, hshown]
    cases ending with
    | ok value => exact congrArg Prod.snd (machine.play_map later _ _)
    | failed error => rfl
    | stalled => rfl

theorem play_display_shown {frame : Frame}
    (h : (machine.play (compositor.showFrame frame) moment).1 = .ok ()) :
    (machine.play (compositor.display frame) moment).2 =
      (machine.play (compositor.setBacklight compositor.board.logo.brightness)
        ((machine.play (compositor.showFrame frame) moment).2.append
          (compositor.powerUp compositor.board.logo.brightness moment.state.lit))).2 := by
  have hlit : (machine.play (compositor.showFrame frame) moment).2.state.lit = moment.state.lit :=
    lit_play (showLayer_calm ..)
  rw [play_display]
  simp only [h, play_light, hlit]

theorem play_display_unshown {frame : Frame}
    (h : (machine.play (compositor.showFrame frame) moment).1 ≠ .ok ()) :
    (machine.play (compositor.display frame) moment).2 =
      (machine.play (compositor.showFrame frame) moment).2 := by
  rw [play_display]
  split
  · exact absurd ‹_› h
  · rfl

end Compositor

end BootLogo
