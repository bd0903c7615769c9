import BootLogo.Proofs.Compositor.Opening
import BootLogo.Proofs.Compositor.Overlay
import BootLogo.Proofs.Session.Rejection
import BootLogo.Proofs.Session.Splashes

/-!
# The controller is started once

Logos are presented one after the other on a compositor that starts off, and the hardware answers. The first
one that is accepted starts the controller; every other one finds it off and leaves it so, or finds it up and
leaves it up (`Presented.starts_once`).

* `Idle`, `Alight`: where the controller stands before and after that logo.
* `display_lights`, `play_present`: what a picture and a logo do to a controller that stands so.
* `Presented.stands`: where the controller stands after any number of logos.
-/

namespace BootLogo

open Compositor (State)
open Script

variable {σ : Type}

namespace Compositor

variable {compositor : Compositor} {words : TimingWords} {machine : Machine σ} {moment : Moment σ}

/-- Nothing was told to a controller that is off. -/
structure Idle (moment : Moment σ) : Prop where
  off : moment.state.power = .off
  calls : moment.trace.calls = []

/-- The controller is up, and the backlight as bright as a logo has it. -/
structure Alight (compositor : Compositor) (words : TimingWords) (moment : Moment σ) : Prop where
  opened : compositor.Opened words moment
  lit : compositor.Lit compositor.board.logo.brightness moment.trace

theorem Idle.not_isRunning (h : Idle moment) : compositor.isRunning moment.state.power = false := by
  rw [h.off]
  rfl

theorem Idle.congr {τ : Type} {later : Moment τ} (h : Idle moment) (hstate : later.state = moment.state)
    (htrace : later.trace = moment.trace) : Idle later :=
  ⟨by rw [hstate, h.off], by rw [htrace, h.calls]⟩

theorem Alight.congr {τ : Type} {later : Moment τ} (h : compositor.Alight words moment)
    (hstate : later.state = moment.state) (htrace : later.trace = moment.trace) :
    compositor.Alight words later := by
  obtain ⟨⟨hrunning, hcalls⟩, hlit⟩ := h
  exact ⟨⟨by rw [hstate, hrunning], by rwa [htrace]⟩, by rwa [htrace]⟩

theorem Idle.notes (h : Idle moment) (entries : Log) : Idle (moment.append (entries.map Event.note)) := by
  refine ⟨h.off, (Trace.calls_append _ _).trans ?_⟩
  rw [h.calls, Trace.calls_map_note]
  rfl

theorem Alight.notes (h : compositor.Alight words moment) (entries : Log) :
    compositor.Alight words (moment.append (entries.map Event.note)) := by
  have hnone : Trace.calls (entries.map Event.note) = [] := Trace.calls_map_note entries
  refine ⟨h.opened.append rfl rfl (by simp [hnone]), h.lit.append (by rw [hnone]; rfl) ?_⟩
  simp [Trace.pins]

/-! ## A picture -/

theorem showLayer_opened (frame : Frame) {placement : Placement} (mode : CommitMode)
    (hplacement : placement.validate = .ok ()) :
    Triple machine (compositor.Opened words) (compositor.showLayer frame placement mode)
      (fun _ => compositor.Opened words) fun error _ => error.OfHardware := by
  have hs (state : State) : (compositor.showLayer frame placement mode).Within steady state :=
    (compositor.showLayer_orderly frame mode fun _ _ => trivial).within.mono
      (programming_le_steady .heo fun _ => True)
  have hkept := @opened_triple _ _ compositor machine words _ hs
  have hends : Triple machine (compositor.Opened words) (compositor.showLayer frame placement mode)
      (fun _ _ => True) fun error _ => error.OfHardware := by
    intro moment h
    exact (compositor.showLayer_plays frame mode ⟨hplacement, h.running⟩).triple.weaken (fun _ h => h)
      (fun _ _ _ => trivial) (fun _ _ h => h) moment ⟨rfl, rfl⟩
  exact (hkept.and hends).weaken (fun _ h => ⟨h, h⟩) (fun _ _ h => h.1) fun _ _ h => h.2

theorem display_lights (frame : Frame) (hplace : (compositor.place frame.size).validate = .ok ()) :
    Triple machine (compositor.Opened words) (compositor.display frame)
      (fun _ => compositor.Alight words) fun error _ => error.OfHardware := by
  have hlight : Triple machine (compositor.Opened words) (compositor.light compositor.board.logo.brightness)
      (fun _ moment => compositor.Opened words moment ∧
        compositor.Lit compositor.board.logo.brightness moment.trace) fun error _ => error.OfHardware :=
    dimmed_triple (fun _ => (compositor.light_dims _).within) (light_lit _)
  refine (Triple.ofExcept hplace).bind fun _ => (showLayer_opened frame _ hplace).bind fun _ => ?_
  refine hlight.bind fun _ => ?_
  exact .done fun _ h => ⟨h.1, h.2⟩

theorem start_lights (hwords : compositor.timingWords = .ok words) (frame : Frame)
    (hplace : (compositor.place frame.size).validate = .ok ()) (state : State) :
    Triple machine (fun moment => moment.state = state ∧ (Idle moment ∨ compositor.Alight words moment))
      (if !compositor.isRunning state.power then
        compositor.init.bind fun _ => compositor.display frame else compositor.display frame)
      (fun _ => compositor.Alight words) fun error _ => error.OfHardware := by
  refine .cond (fun hdown => ?_) fun hup => ?_
  · have hinit : Triple machine
        (fun moment => moment.state = state ∧ (Idle moment ∨ compositor.Alight words moment))
        compositor.init (fun _ => compositor.Opened words) fun error _ => error.OfHardware := by
      refine (init_opens hwords).weaken ?_ (fun _ _ h => h.1) fun _ _ h => h
      rintro moment ⟨rfl, hidle | halight⟩
      · exact hidle.calls
      · rw [halight.opened.running] at hdown
        cases hdown
    exact hinit.bind fun _ => display_lights frame hplace
  · refine (display_lights frame hplace).weaken ?_ (fun _ _ h => h) fun _ _ h => h
    rintro moment ⟨rfl, hidle | halight⟩
    · rw [hidle.not_isRunning] at hup
      exact absurd rfl hup
    · exact halight.opened

end Compositor

open Compositor (Idle)

/-- Every start that ends well makes the calls of a start. -/
theorem Operation.init_starts {compositor : Compositor} {words : TimingWords}
    (hwords : compositor.timingWords = .ok words) (hardware : Hardware σ) (patience : Nat) (state : State)
    (world : σ) :
    let run := Operation.init.perform hardware patience compositor state world
    run.ending = .ok none → run.trace.calls.filter Call.Starts = compositor.startCalls words := by
  intro run hok
  have hrun := perform_init hardware patience compositor state world
  obtain ⟨value, hvalue, -⟩ := Ending.map_eq_ok.1 ((congrArg Run.ending hrun).symm.trans hok)
  have hopened := ((Compositor.init_opens hwords).of_ok rfl hvalue).1
  exact (congrArg (fun run => run.trace.calls.filter Call.Starts) hrun).trans
    (hopened.filter_calls hwords)

/-! ## A logo -/

theorem Logo.play_present {compositor : Compositor} {words : TimingWords}
    (hwords : compositor.timingWords = .ok words) (machine : Machine σ) (addresses : Addresses)
    (buffers : Buffers) {moment : Moment σ} (hmoment : Idle moment ∨ compositor.Alight words moment) :
    let played := machine.play (present compositor addresses buffers).script moment
    played.1 ≠ .stalled → (∀ error, played.1 = .failed error → ¬ error.OfHardware) →
      (Acceptable compositor buffers ∧ (∃ placement, played.1 = .ok placement) ∧
          compositor.Alight words played.2) ∨
        ¬ Acceptable compositor buffers ∧ (∃ error, played.1 = .failed error) ∧
          ∃ log : Log, played.2 = moment.append (log.map Event.note) := by
  intro played hended hanswered
  rcases prepare_cases compositor addresses buffers with
    ⟨error, hresult, -, -, hnot⟩ | ⟨frame, hresult, hplace, hacceptable⟩
  · have hplayed : played = (.failed error, _) := play_present_rejected hresult
    exact .inr ⟨hnot, ⟨error, congrArg Prod.fst hplayed⟩, _, congrArg Prod.snd hplayed⟩
  · let noted := moment.append ((prepare compositor addresses buffers).log.map Event.note)
    have hplayed : played = machine.play (if !compositor.isRunning moment.state.power then
        compositor.init.bind fun _ => compositor.display frame else compositor.display frame) noted :=
      play_present_accepted hresult
    have hnoted : noted.state = moment.state ∧ (Idle noted ∨ compositor.Alight words noted) :=
      ⟨rfl, hmoment.imp (·.notes _) (·.notes _)⟩
    have hlights := @Compositor.start_lights _ _ _ machine hwords frame hplace moment.state
    rw [hplayed] at hended hanswered ⊢
    generalize hfinal : machine.play _ noted = final at hended hanswered ⊢
    cases hending : final.1 with
    | ok placement =>
      subst hfinal
      exact .inl ⟨hacceptable, ⟨placement, rfl⟩, hlights.of_ok hnoted hending⟩
    | failed error =>
      subst hfinal
      exact absurd (hlights.of_failed hnoted hending) (hanswered error hending)
    | stalled => exact absurd hending hended

/-! ## Many logos -/

/-- A logo that was presented: how that ended, what is remembered, and what happened. -/
structure Presentation where
  buffers : Logo.Buffers
  ending : Ending (Option Placement)
  state : State
  trace : Trace

namespace Presentation

def of (buffers : Logo.Buffers) (run : Run σ (Option Placement)) : Presentation :=
  ⟨buffers, run.ending, run.state, run.trace⟩

/-- The logo was accepted. -/
def Accepted (shown : Presentation) : Prop := ∃ placement, shown.ending = .ok placement

/-- All that happened. -/
def traces (history : List Presentation) : Trace := history.flatMap trace

/-- What a logo comes to that was presented after others. -/
structure StartsOnce (compositor : Compositor) (words : TimingWords) (earlier : List Presentation)
    (shown : Presentation) : Prop where
  accepted_iff : shown.Accepted ↔ Logo.Acceptable compositor shown.buffers
  /-- The first logo that is accepted starts the controller. -/
  starts : shown.Accepted → (∀ other ∈ earlier, ¬ other.Accepted) →
    shown.trace.calls.filter Call.Starts = compositor.startCalls words
  /-- Any other logo starts and stops nothing. -/
  leaves : (shown.Accepted → ∃ other ∈ earlier, other.Accepted) →
    shown.trace.calls.filter Call.Starts = []
  /-- Once a logo was accepted, the controller is up and lit. -/
  running : (∃ other ∈ earlier ++ [shown], other.Accepted) →
    compositor.isRunning shown.state.power = true ∧
      compositor.Lit compositor.board.logo.brightness (traces (earlier ++ [shown]))

end Presentation

/-- Logos were presented one after the other on a compositor that starts off. The hardware answered every wait
and its pin took every level; it may be another one for each logo. -/
inductive Presented (compositor : Compositor) : List Presentation → State → Prop
  | begin {state : State} (hoff : state.power = .off) : Presented compositor [] state
  | present {history : List Presentation} {state : State} (earlier : Presented compositor history state)
    {σ : Type} (hardware : Hardware σ) (patience : Nat) (addresses : Logo.Addresses)
    (buffers : Logo.Buffers) (world : σ) {run : Run σ (Option Placement)}
    (hrun : (Operation.present addresses buffers).perform hardware patience compositor state world = run)
    (hended : run.ending ≠ .stalled)
    (hanswered : ∀ error, run.ending = .failed error → ¬ error.OfHardware) :
    Presented compositor (history ++ [.of buffers run]) run.state

namespace Presented

open Presentation (traces StartsOnce)

variable {compositor : Compositor} {words : TimingWords} {history : List Presentation} {state : State}

/-- Where the controller stands after some logos. -/
def Stands (compositor : Compositor) (words : TimingWords) (history : List Presentation) (state : State) :
    Prop :=
  let moment : Moment Unit := ⟨state, (), traces history⟩
  ((∀ shown ∈ history, ¬ shown.Accepted) ∧ Idle moment) ∨
    (∃ shown ∈ history, shown.Accepted) ∧ compositor.Alight words moment

theorem traces_concat (history : List Presentation) (shown : Presentation) :
    traces (history ++ [shown]) = traces history ++ shown.trace := by
  simp only [traces, List.flatMap_append, List.flatMap_singleton]

theorem filter_calls_concat (history : List Presentation) (shown : Presentation) :
    (traces (history ++ [shown])).calls.filter Call.Starts =
      (traces history).calls.filter Call.Starts ++ shown.trace.calls.filter Call.Starts := by
  rw [traces_concat, Trace.calls_append, List.filter_append]

variable {shown : Presentation}

theorem Stands.accepted (hwords : compositor.timingWords = .ok words)
    (h : Stands compositor words history state) (hshown : shown.Accepted)
    (hacceptable : Logo.Acceptable compositor shown.buffers)
    (halight : compositor.Alight words (⟨shown.state, (), traces (history ++ [shown])⟩ : Moment Unit)) :
    Stands compositor words (history ++ [shown]) shown.state ∧
      StartsOnce compositor words history shown := by
  -- all calls together are those of one start, so the logo made what was missing before
  have hcalls := halight.opened.filter_calls hwords
  rw [filter_calls_concat] at hcalls
  refine ⟨.inr ⟨⟨shown, List.mem_append_right _ List.mem_cons_self, hshown⟩, halight⟩,
    ⟨fun _ => hacceptable, fun _ => hshown⟩, fun _ hnone => ?_, fun hearlier => ?_,
    fun _ => ⟨halight.opened.running, halight.lit⟩⟩
  · rcases h with ⟨-, hidle⟩ | ⟨⟨other, hother, haccepted⟩, -⟩
    · rwa [hidle.calls, List.filter_nil, List.nil_append] at hcalls
    · exact absurd haccepted (hnone other hother)
  · rcases h with ⟨hnone, -⟩ | ⟨-, hbefore⟩
    · obtain ⟨other, hother, haccepted⟩ := hearlier hshown
      exact absurd haccepted (hnone other hother)
    · rwa [hbefore.opened.filter_calls hwords, List.append_right_eq_self] at hcalls

theorem Stands.rejected (h : Stands compositor words history state) (hshown : ¬ shown.Accepted)
    (hnot : ¬ Logo.Acceptable compositor shown.buffers) (hstate : shown.state = state) {log : Log}
    (htrace : shown.trace = log.map Event.note) :
    Stands compositor words (history ++ [shown]) shown.state ∧
      StartsOnce compositor words history shown := by
  have hcalls : shown.trace.calls = [] := htrace ▸ Trace.calls_map_note log
  have htraces : traces (history ++ [shown]) = traces history ++ log.map Event.note := by
    rw [traces_concat, htrace]
  have hstands : Stands compositor words (history ++ [shown]) shown.state := by
    refine h.imp (fun ⟨hnone, hidle⟩ => ⟨fun other hother => ?_, (hidle.notes log).congr hstate htraces⟩)
      fun ⟨⟨other, hother, haccepted⟩, halight⟩ =>
        ⟨⟨other, List.mem_append_left _ hother, haccepted⟩, (halight.notes log).congr hstate htraces⟩
    rcases List.mem_append.1 hother with hother | hother
    · exact hnone other hother
    · rwa [List.mem_singleton.1 hother]
  refine ⟨hstands, ⟨fun haccepted => absurd haccepted hshown, fun hacceptable => absurd hacceptable hnot⟩,
    fun haccepted => absurd haccepted hshown, fun _ => by rw [hcalls]; rfl, ?_⟩
  rintro ⟨other, hother, haccepted⟩
  rcases hstands with ⟨hnone, -⟩ | ⟨-, halight⟩
  · exact absurd haccepted (hnone other hother)
  · exact ⟨halight.opened.running, halight.lit⟩

theorem Stands.present (hwords : compositor.timingWords = .ok words)
    (h : Stands compositor words history state) (hardware : Hardware σ) (patience : Nat)
    (addresses : Logo.Addresses) (buffers : Logo.Buffers) (world : σ) :
    let run := (Operation.present addresses buffers).perform hardware patience compositor state world
    run.ending ≠ .stalled → (∀ error, run.ending = .failed error → ¬ error.OfHardware) →
      Stands compositor words (history ++ [.of buffers run]) run.state ∧
        StartsOnce compositor words history (.of buffers run) := by
  intro run hended hanswered
  let machine : Machine σ := ⟨hardware, compositor.board.poll, patience⟩
  let start : Moment σ := ⟨state, world, traces history⟩
  let played := machine.play (Logo.present compositor addresses buffers).script start
  let closing : Log := Logo.closing (played.1.map some)
  have hrun := Operation.perform_present hardware patience compositor addresses buffers state world
  have hending : run.ending = played.1.map some := congrArg Run.ending hrun
  have hstate : run.state = played.2.state := congrArg Run.state hrun
  have htrace : traces history ++ run.trace = played.2.trace ++ closing.map Event.note :=
    (congrArg (traces history ++ Run.trace ·) hrun).trans (List.append_assoc _ _ _).symm
  have hstart : Idle start ∨ compositor.Alight words start :=
    h.imp (fun h => h.2.congr rfl rfl) fun h => h.2.congr rfl rfl
  have hplayed : played.1 ≠ .stalled := by
    rintro hstalled
    rw [hending, hstalled] at hended
    exact hended rfl
  have hserved (error : Error) (hfailed : played.1 = .failed error) : ¬ error.OfHardware :=
    hanswered error (hending.trans (Ending.map_eq_failed.2 hfailed))
  rcases Logo.play_present hwords machine addresses buffers hstart hplayed hserved with
    ⟨hacceptable, ⟨placement, hok⟩, halight⟩ | ⟨hnot, ⟨error, hfailed⟩, log, hlast⟩
  · have hshown : (Presentation.of buffers run).Accepted :=
      ⟨some placement, hending.trans (Ending.map_eq_ok.2 ⟨placement, hok, rfl⟩)⟩
    refine h.accepted hwords hshown hacceptable ((halight.notes closing).congr hstate ?_)
    exact (traces_concat history _).trans htrace
  · have hshown : ¬ (Presentation.of buffers run).Accepted := by
      rintro ⟨shown, hok⟩
      have hboth := (hending.trans (Ending.map_eq_failed.2 hfailed)).symm.trans hok
      cases hboth
    have hnotes : run.trace = (log ++ closing).map Event.note := by
      refine List.append_cancel_left (htrace.trans ?_)
      rw [hlast, List.map_append]
      exact List.append_assoc _ _ _
    exact h.rejected hshown hnot (hstate.trans (congrArg Moment.state hlast)) hnotes

theorem stands (hwords : compositor.timingWords = .ok words) (h : Presented compositor history state) :
    Stands compositor words history state ∧
      ∀ earlier shown later, history = earlier ++ shown :: later →
        StartsOnce compositor words earlier shown := by
  induction h with
  | begin hoff =>
    refine ⟨.inl ⟨fun shown hshown => absurd hshown List.not_mem_nil, hoff, rfl⟩, ?_⟩
    exact fun earlier shown later hsplit => absurd hsplit (by simp)
  | @present history state earlier σ hardware patience addresses buffers world run hrun hended hanswered ih =>
    subst hrun
    obtain ⟨hstands, honce⟩ :=
      ih.1.present hwords hardware patience addresses buffers world hended hanswered
    refine ⟨hstands, fun front shown back hsplit => ?_⟩
    rcases append_eq_append_cons hsplit with ⟨rest, hfront, -⟩ | ⟨rest, hfront, hback⟩
    · exact ih.2 front shown rest hfront
    · cases rest with
      | nil =>
        rw [List.append_nil] at hfront
        rw [hfront, ← (List.cons.inj hback).1]
        exact honce
      | cons other rest => exact absurd (List.cons.inj hback).2 (by simp)

/-- **The controller is started once.** Of the logos that are presented, the first that is accepted makes the
calls of a start, which every start makes that ends well, and no other logo starts or stops anything. From
then on the controller is up, and the backlight as bright as a logo has it. -/
theorem starts_once (hwords : compositor.timingWords = .ok words)
    (h : Presented compositor history state) :
    (∀ earlier shown later, history = earlier ++ shown :: later →
        StartsOnce compositor words earlier shown) ∧
      ((∃ shown ∈ history, shown.Accepted) →
        (traces history).calls.filter Call.Starts = compositor.startCalls words) ∧
      ((∀ shown ∈ history, ¬ shown.Accepted) → (traces history).calls.filter Call.Starts = []) ∧
      ∀ (σ : Type) (hardware : Hardware σ) (patience : Nat) (before : State) (world : σ),
        let run := Operation.init.perform hardware patience compositor before world
        run.ending = .ok none → run.trace.calls.filter Call.Starts = compositor.startCalls words := by
  obtain ⟨hstands, honce⟩ := h.stands hwords
  refine ⟨honce, fun ⟨shown, hshown, haccepted⟩ => ?_, fun hnone => ?_,
    fun _ hardware patience before world => Operation.init_starts hwords hardware patience before world⟩
  · rcases hstands with ⟨hnone, -⟩ | ⟨-, halight⟩
    · exact absurd haccepted (hnone shown hshown)
    · exact halight.opened.filter_calls hwords
  · rcases hstands with ⟨-, hidle⟩ | ⟨⟨shown, hshown, haccepted⟩, -⟩
    · rw [hidle.calls]
      rfl
    · exact absurd haccepted (hnone shown hshown)

end Presented

/-! ## Three logos -/

namespace Compositor

/-- A blob is presented on the evaluation board. -/
def ebShow (blob : Bytes) (state : State) (recorder : Recorder) : Run Recorder (Option Placement) :=
  (Operation.present ⟨0x20000, 0x30000⟩ ⟨blob, []⟩).perform Recorder.hardware 1 eb state recorder

def ebRefused : Run Recorder (Option Placement) := ebShow pixelMissing (.initial eb.board) .fresh

def ebFirst : Run Recorder (Option Placement) := ebShow dot ebRefused.state ebRefused.hardware

def ebSecond : Run Recorder (Option Placement) := ebShow dot ebFirst.state ebFirst.hardware

/-- A logo that is refused, and one pixel twice. -/
def ebHistory : List Presentation :=
  [.of ⟨pixelMissing, []⟩ ebRefused, .of ⟨dot, []⟩ ebFirst, .of ⟨dot, []⟩ ebSecond]

theorem starts_once_dot : ∃ words, eb.timingWords = .ok words ∧ Presented eb ebHistory ebSecond.state ∧
    ebRefused.trace.calls.filter Call.Starts = [] ∧
      ebFirst.trace.calls.filter Call.Starts = eb.startCalls words ∧
      ebSecond.trace.calls.filter Call.Starts = [] ∧
      eb.isRunning ebSecond.state.power = true := by
  have hrefused : ebRefused.ending = .failed (.bitmap (.geometry (.pixelsOutOfBounds 58 54))) := rfl
  have hfirst : ebFirst.ending = .ok (some (eb.place ⟨1, 1⟩)) := rfl
  have hsecond : ebSecond.ending = .ok (some (eb.place ⟨1, 1⟩)) := rfl
  have hbegin : Presented eb [] (.initial eb.board) := .begin rfl
  have hone := hbegin.present Recorder.hardware 1 ⟨0x20000, 0x30000⟩ ⟨pixelMissing, []⟩ .fresh
    (show _ = ebRefused from rfl) (by rw [hrefused]; nofun) (by
      rintro error herror hhardware
      rw [hrefused] at herror
      cases herror
      rcases hhardware with heq | ⟨_, _, heq⟩ <;> cases heq)
  have htwo := hone.present Recorder.hardware 1 ⟨0x20000, 0x30000⟩ ⟨dot, []⟩ ebRefused.hardware
    (show _ = ebFirst from rfl) (by rw [hfirst]; nofun) (by rw [hfirst]; nofun)
  have hthree := htwo.present Recorder.hardware 1 ⟨0x20000, 0x30000⟩ ⟨dot, []⟩ ebFirst.hardware
    (show _ = ebSecond from rfl) (by rw [hsecond]; nofun) (by rw [hsecond]; nofun)
  refine ⟨_, rfl, hthree, ?_⟩
  have honce := (Presented.starts_once rfl hthree).1
  have haccepted : (Presentation.of ⟨dot, []⟩ ebFirst).Accepted := ⟨_, hfirst⟩
  have hnone : ¬ (Presentation.of ⟨pixelMissing, []⟩ ebRefused).Accepted := by
    rintro ⟨placement, hok⟩
    cases hrefused.symm.trans hok
  refine ⟨(honce [] _ _ rfl).leaves fun h => absurd h hnone,
    (honce [_] _ _ rfl).starts haccepted fun other hother => List.mem_singleton.1 hother ▸ hnone,
    (honce [_, _] _ _ rfl).leaves fun _ => ⟨_, List.mem_cons_of_mem _ List.mem_cons_self, haccepted⟩,
    ((honce [_, _] _ _ rfl).running ⟨_, List.mem_cons_of_mem _ List.mem_cons_self, haccepted⟩).1⟩

end Compositor

end BootLogo
