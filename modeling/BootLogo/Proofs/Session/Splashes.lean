import BootLogo.Hardware.Recorder
import BootLogo.Proofs.Session.Served
import BootLogo.Proofs.Session.Start

/-!
# What a shown logo says about the start of the controller

Logos are shown on one compositor, and the controller is started again and again; anything may fail in
between. Once a logo was shown, the controller has come up and was not asked to come up since. The base
layer was shown after that if the start that brought the controller up ran to its end
(`present_over_base`). A start that fails later than that leaves a controller that counts as running, and
the next logo is shown without a start.
-/

namespace BootLogo

open Compositor (State)
open Script

variable {σ : Type}

/-- A start of the controller, or a logo. -/
def Operation.IsSplash : Operation → Prop
  | .init | .present _ _ => True
  | _ => False

/-- Whether a start from here runs to its end. -/
def Compositor.startsWhole (compositor : Compositor) (machine : Machine σ) (state : State) (world : σ) :
    Bool :=
  match (machine.play compositor.init ⟨state, world, []⟩).1 with
  | .ok _ => true
  | _ => false

/-- What is remembered, all that has happened, and whether the start that last brought the controller up
ran to its end, after starts and logos on one compositor. Each may fail, and find another hardware. -/
inductive Splashes (compositor : Compositor) : State → Trace → Bool → Prop
  | begin : Splashes compositor (.initial compositor.board) [] false
  | operate {state : State} {trace : Trace} {whole : Bool}
    (earlier : Splashes compositor state trace whole) {σ : Type} (hardware : Hardware σ) (patience : Nat)
    (operation : Operation) (hsplash : operation.IsSplash) (world : σ)
    (hended : (operation.perform hardware patience compositor state world).ending ≠ .stalled) :
    Splashes compositor (operation.perform hardware patience compositor state world).state
      (trace ++ (operation.perform hardware patience compositor state world).trace)
      (if compositor.rises ∈ (operation.perform hardware patience compositor state world).trace then
        compositor.startsWhole ⟨hardware, compositor.board.poll, patience⟩ state world
      else whole)

namespace Compositor

variable {compositor : Compositor} {machine : Machine σ} {moment later : Moment σ} {reached : Power}
  {whole : Bool} {state : State} {world : σ}

/-- What an operation comes to: the controller was not brought up, or it was, by a start that ran to its
end if `whole`. -/
def Comes (compositor : Compositor) (reached : Power) (whole : Bool) (moment : Moment σ) : Prop :=
  compositor.Grounded reached moment ∨ compositor.rises ∈ moment.trace ∧
    (compositor.isRunning moment.state.power = true →
      compositor.Raised (whole = true) moment.trace)

theorem Comes.sunk (h : compositor.Comes reached whole moment) (hsunk : compositor.Sunk moment later) :
    compositor.Comes reached whole later := by
  rcases h with hgrounded | ⟨hrises, hraised⟩
  · exact .inl (hgrounded.sunk hsunk)
  · refine .inr ⟨?_, fun hrunning => (hraised (hsunk.power hrunning)).sunk hsunk⟩
    obtain ⟨more, htrace, -⟩ := hsunk.trace
    rw [htrace]
    exact List.mem_append_left _ hrises

theorem comes_of_halted (h : compositor.Halted reached moment) :
    compositor.Comes reached false moment := by
  by_cases hrises : compositor.rises ∈ moment.trace
  · refine .inr ⟨hrises, fun hrunning => ?_⟩
    rcases h hrunning with hraised | hgrounded
    · exact hraised.imp nofun
    · exact absurd hrises hgrounded.1
  · refine .inl ⟨hrises, fun hrunning => ?_⟩
    rcases h hrunning with hraised | hgrounded
    · exact absurd hraised.mem hrises
    · exact hgrounded.2 hrunning

theorem start_comes (machine : Machine σ) (moment : Moment σ)
    (hearlier : compositor.rises ∉ moment.trace) :
    (∃ value, (machine.play compositor.init moment).1 = .ok value ∧
        compositor.startsWhole machine moment.state moment.world = true ∧
        compositor.Raised True (machine.play compositor.init moment).2.trace) ∨
      (∃ error, (machine.play compositor.init moment).1 = .failed error ∧
        compositor.Comes moment.state.power
          (compositor.startsWhole machine moment.state moment.world)
          (machine.play compositor.init moment).2) ∨
      (machine.play compositor.init moment).1 = .stalled := by
  have hbefore : compositor.Grounded moment.state.power moment := ⟨hearlier, id⟩
  -- what came before makes no difference to how a start ends
  have hending : (machine.play compositor.init ⟨moment.state, moment.world, []⟩).1 =
      (machine.play compositor.init moment).1 := rfl
  cases hplayed : (machine.play compositor.init moment).1 with
  | ok value =>
    refine .inl ⟨value, rfl, ?_, init_raises.of_ok hbefore hplayed⟩
    rw [startsWhole, hending, hplayed]
  | failed error =>
    have hwhole : compositor.startsWhole machine moment.state moment.world = false := by
      rw [startsWhole, hending, hplayed]
    rw [hwhole]
    exact .inr (.inl ⟨error, rfl, comes_of_halted (init_raises.of_failed hbefore hplayed)⟩)
  | stalled => exact .inr (.inr rfl)

theorem present_comes (addresses : Logo.Addresses) (buffers : Logo.Buffers) :
    let played := machine.play (Logo.present compositor addresses buffers).script ⟨state, world, []⟩
    played.1 ≠ .stalled →
      compositor.Comes state.power (compositor.startsWhole machine state world) played.2 ∧
        ∀ placement, played.1 = .ok placement →
          (compositor.rises ∉ played.2.trace ∧ compositor.isRunning state.power = true) ∨
            compositor.startsWhole machine state world = true ∧
              compositor.Raised True played.2.trace := by
  intro played hended
  let prepared := Logo.prepare compositor addresses buffers
  let noted : Moment σ := (⟨state, world, []⟩ : Moment σ).append (prepared.log.map Event.note)
  have hnoted : compositor.Grounded state.power noted :=
    Grounded.sunk ⟨List.not_mem_nil, id⟩ (.notes prepared.log)
  have hdisplay (frame : Frame) (state : State) :
      (compositor.display frame).Within compositor.sinking state :=
    (compositor.display_quiet frame fun _ _ => trivial).mono (compositor.quiet_le_sinking fun _ => True)
  cases hresult : prepared.result with
  | error error =>
    have hplayed : played = (.failed error, noted) := Logo.play_present_rejected hresult
    rw [hplayed]
    exact ⟨.inl hnoted, nofun⟩
  | ok frame =>
    have hplayed : played = machine.play (if !compositor.isRunning state.power then
        compositor.init.bind fun _ => compositor.display frame else compositor.display frame) noted :=
      Logo.play_present_accepted hresult
    cases hrunning : compositor.isRunning state.power with
    | true =>
      rw [hrunning] at hplayed
      have hgrounded : compositor.Grounded state.power played.2 := by
        rw [hplayed]
        exact hnoted.sunk (.of_play (hdisplay frame _))
      exact ⟨.inl hgrounded, fun _ _ => .inl ⟨hgrounded.1, rfl⟩⟩
    | false =>
      rw [hrunning] at hplayed
      have hstarted : played =
          machine.play (compositor.init.bind fun _ => compositor.display frame) noted := hplayed
      rw [Machine.play_bind] at hstarted
      have hstart := start_comes machine noted hnoted.1
      generalize machine.play compositor.init noted = started at hstarted hstart
      obtain ⟨ending, later⟩ := started
      rcases hstart with ⟨value, rfl, hwhole, hraised⟩ | ⟨error, rfl, hcomes⟩ | rfl
      · have hshown : compositor.Raised True played.2.trace := by
          rw [hstarted]
          exact hraised.sunk (.of_play (hdisplay frame _))
        exact ⟨.inr ⟨hshown.mem, fun _ => hshown.imp fun _ => trivial⟩,
          fun _ _ => .inr ⟨hwhole, hshown⟩⟩
      · rw [hstarted]
        exact ⟨hcomes, nofun⟩
      · exact absurd (congrArg Prod.fst hstarted) hended

theorem splash_comes (operation : Operation) (hsplash : operation.IsSplash) :
    let played := machine.play (operation.script compositor) ⟨state, world, []⟩
    played.1 ≠ .stalled →
      compositor.Comes state.power (compositor.startsWhole machine state world) played.2 := by
  intro played hended
  cases operation with
  | init =>
    have hplayed : played = ((machine.play compositor.init ⟨state, world, []⟩).1.map fun _ => none,
      (machine.play compositor.init ⟨state, world, []⟩).2) := machine.play_map _ _ _
    rw [hplayed] at hended ⊢
    rcases start_comes machine ⟨state, world, []⟩ List.not_mem_nil with
      ⟨value, -, hwhole, hraised⟩ | ⟨error, -, hcomes⟩ | hstalled
    · exact .inr ⟨hraised.mem, fun _ => hraised.imp fun _ => trivial⟩
    · exact hcomes
    · rw [hstalled] at hended
      exact absurd rfl hended
  | present addresses buffers =>
    let shown := machine.play (Logo.present compositor addresses buffers).script ⟨state, world, []⟩
    have hplayed : played = (shown.1.map some, shown.2) := machine.play_map _ _ _
    rw [hplayed] at hended ⊢
    refine (present_comes addresses buffers fun hstalled => hended ?_).1
    rw [hstalled]
    rfl
  | _ => exact hsplash.elim

/-- A controller that counts as running has come up; it shows the base layer if the start that brought it
up ran to its end. -/
theorem raised_of_splashes {trace : Trace} (h : Splashes compositor state trace whole)
    (hrunning : compositor.isRunning state.power = true) :
    compositor.Raised (whole = true) trace := by
  induction h with
  | begin =>
    have hoff := compositor.lastStage.reached_ne_off
    exact absurd (compositor.isRunning_iff.1 hrunning).symm hoff
  | @operate state trace whole earlier σ hardware patience operation hsplash world hended ih =>
    let machine : Machine σ := ⟨hardware, compositor.board.poll, patience⟩
    let run := operation.perform hardware patience compositor state world
    have hplayed : (machine.play (operation.script compositor) ⟨state, world, []⟩).1 ≠ .stalled :=
      hended
    have hcomes : compositor.Comes state.power (compositor.startsWhole machine state world)
        ⟨run.state, run.hardware, run.trace⟩ :=
      (splash_comes operation hsplash hplayed).sunk (.notes _)
    rcases hcomes with ⟨hnot, hbefore⟩ | ⟨hrises, hraised⟩
    · have hsame : compositor.rises ∉ run.trace := hnot
      rw [if_neg hsame]
      exact (ih (hbefore hrunning)).append hnot
    · have hnew : compositor.rises ∈ run.trace := hrises
      rw [if_pos hnew]
      exact (hraised hrunning).prepend trace

/-- **A logo that is shown finds the controller up**, and behind the logo the base layer, if the start that
brought the controller up ran to its end. -/
theorem present_over_base {trace : Trace} (h : Splashes compositor state trace whole)
    (hardware : Hardware σ) (patience : Nat) (addresses : Logo.Addresses) (buffers : Logo.Buffers)
    (world : σ) {placement : Option Placement} :
    let run := (Operation.present addresses buffers).perform hardware patience compositor state world
    run.ending = .ok placement →
      ∃ later, Trace.Since compositor.rises (trace ++ run.trace) later ∧
        later.Met compositor.lastStage.up ∧
        (compositor.rises ∈ run.trace ∨ whole = true → compositor.BaseShown later.calls) := by
  intro run hok
  let machine : Machine σ := ⟨hardware, compositor.board.poll, patience⟩
  let played := machine.play (Logo.present compositor addresses buffers).script ⟨state, world, []⟩
  have hrun := Operation.perform_present hardware patience compositor addresses buffers state world
  have htrace : run.trace = played.2.trace ++ (Logo.closing (played.1.map some)).map Event.note :=
    congrArg Run.trace hrun
  have hnotes : compositor.rises ∉ (Logo.closing (played.1.map some)).map Event.note :=
    rises_not_mem_notes _
  obtain ⟨shown, hshown, -⟩ := Ending.map_eq_ok.1 ((congrArg Run.ending hrun).symm.trans hok)
  have hended : played.1 ≠ .stalled := by
    rw [hshown]
    nofun
  rcases (present_comes addresses buffers hended).2 shown hshown with ⟨hnot, hrunning⟩ | ⟨-, hraised⟩
  · have hsame : compositor.rises ∉ run.trace := by
      rw [htrace]
      exact List.not_mem_append hnot hnotes
    obtain ⟨later, hsince, hmet, hbase⟩ := (raised_of_splashes h hrunning).append hsame
    exact ⟨later, hsince, hmet, fun hwhole => hbase (hwhole.resolve_left hsame)⟩
  · obtain ⟨later, hsince, hmet, hbase⟩ := hraised.append hnotes
    rw [htrace]
    exact ⟨later, hsince.prepend trace, hmet, fun _ => hbase trivial⟩

/-! ## A start that was interrupted -/

/-- One pixel. -/
def dot : Bytes :=
  [0x42, 0x4D] ++ Bytes.ofWord 58 ++ Bytes.ofWord 0 ++ Bytes.ofWord 54 ++ Bytes.ofWord 40 ++
    Bytes.ofWord 1 ++ Bytes.ofWord 1 ++ [1, 0, 24, 0] ++ List.replicate 24 0 ++ [0x10, 0x20, 0x30, 0]

/-- A start with a pin that takes levels or refuses them. -/
def ebStart (pinRefuses : Bool) : Run Recorder (Option Placement) :=
  Operation.init.perform Recorder.hardware 1 eb (.initial eb.board) { Recorder.fresh with pinRefuses }

/-- The pixel is shown after such a start, by a pin that takes levels. -/
def ebDot (pinRefuses : Bool) : Run Recorder (Option Placement) :=
  (Operation.present ⟨0x20000, 0x30000⟩ ⟨dot, []⟩).perform Recorder.hardware 1 eb
    (ebStart pinRefuses).state { (ebStart pinRefuses).hardware with pinRefuses := false }

theorem present_over_base_dot :
    (ebDot false).ending = .ok (some (eb.place ⟨1, 1⟩)) ∧
      ∃ later, Trace.Since eb.rises ((ebStart false).trace ++ (ebDot false).trace) later ∧
        later.Met eb.lastStage.up ∧ eb.BaseShown later.calls := by
  have hstart : Splashes eb (ebStart false).state (ebStart false).trace true :=
    .operate .begin Recorder.hardware 1 .init trivial _ nofun
  have hok : (ebDot false).ending = .ok (some (eb.place ⟨1, 1⟩)) := rfl
  obtain ⟨later, hsince, hmet, hbase⟩ := present_over_base hstart Recorder.hardware 1
    ⟨0x20000, 0x30000⟩ ⟨dot, []⟩ { (ebStart false).hardware with pinRefuses := false } hok
  exact ⟨hok, later, hsince, hmet, hbase (.inr rfl)⟩

/-- The pin refuses the dark level in the start, and the logo is shown without a base layer. -/
theorem interrupted_start_shows_no_base :
    Splashes eb (ebStart true).state (ebStart true).trace false ∧
      (ebStart true).ending = .failed (.config .pinRefused) ∧
      (ebDot true).ending = .ok (some (eb.place ⟨1, 1⟩)) ∧
      ∀ later, Trace.Since eb.rises ((ebStart true).trace ++ (ebDot true).trace) later →
        ¬ eb.BaseShown later.calls := by
  refine ⟨.operate .begin Recorder.hardware 1 .init trivial _ nofun, rfl, rfl, ?_⟩
  have hnever : lastWritten? (.layerCfg .base 1) ((ebStart true).trace ++ (ebDot true).trace).calls =
      none := rfl
  rintro later ⟨-, earlier, htrace⟩ hbase
  have hshown := hbase.prepend (Trace.calls (earlier ++ [eb.rises]))
  rw [← Trace.calls_append, List.append_assoc, List.singleton_append, ← htrace] at hshown
  exact hshown.ne_none hnever

end Compositor

end BootLogo
