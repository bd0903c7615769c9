import BootLogo.Proofs.Hardware.Replay
import BootLogo.Proofs.Script.Answers

/-!
# Runs that are cut short

A script asks the hardware for three things: to answer a wait, to take a level on the pin, and to say what a
register holds. The first two can fail, and then nothing more is done. So of two runs of a script on hardware
whose registers read the same, the one that fails has done the front of what the other has done.

* `Trace.acts`: what was done. `Trace.Smooth`: nothing failed. `Trace.Breaks`: a last step that failed.
* `run_smooth_or_breaks`: what fails, fails last.
* `Run.Outlasts`, `run_outlasts`: a smooth run next to any other run of the script.
-/

namespace BootLogo

open Compositor (State)

variable {σ τ α : Type}

/-! ## Traces -/

instance : DecidablePred Event.Passive
  | .status _ | .pinRefused _ | .note _ => .isTrue trivial
  | .call _ | .await _ | .config _ _ | .pin _ | .pause _ => .isFalse id

namespace Trace

variable {trace front back : Trace} {condition : Condition} {expired : Timeout} {status : Signals}

/-- What was done, without what the hardware showed of itself and what was logged. -/
def acts (trace : Trace) : Trace := trace.filter fun event => ¬ event.Passive

theorem acts_append (front back : Trace) : acts (front ++ back) = acts front ++ acts back :=
  List.filter_append ..

theorem acts_notes (entries : Log) : acts (entries.map Event.note) = [] := by
  induction entries with
  | nil => rfl
  | cons entry entries ih => exact ih

theorem acts_statuses (seen : List Signals) : acts (seen.map Event.status) = [] := by
  induction seen with
  | nil => rfl
  | cons status seen ih => exact ih

theorem calls_acts (trace : Trace) : trace.acts.calls = trace.calls := by
  induction trace with
  | nil => rfl
  | cons event rest ih =>
    cases event with
    | call call => exact congrArg (call :: ·) ih
    | _ => exact ih

theorem met_cons_status : Met condition (.status status :: trace) ↔
    condition.holds status = true ∨ Met condition trace := by
  constructor
  · rintro ⟨seen, found, rest, heq, hholds⟩
    cases seen with
    | nil =>
      cases heq
      exact .inl hholds
    | cons first seen =>
      cases heq
      exact .inr ⟨seen, found, rest, rfl, hholds⟩
  · rintro (hholds | ⟨seen, found, rest, rfl, hholds⟩)
    · exact ⟨[], status, trace, rfl, hholds⟩
    · exact ⟨status :: seen, found, rest, rfl, hholds⟩

theorem not_met_nil : ¬ Met condition [] := by
  rintro ⟨seen, found, rest, heq, -⟩
  cases seen <;> cases heq

theorem not_met_cons {event : Event} (h : ∀ status, event ≠ .status status) :
    ¬ Met condition (event :: trace) := by
  rintro ⟨seen, found, rest, heq, -⟩
  cases seen with
  | nil => exact h found (List.cons.inj heq).1
  | cons first seen => exact h first (List.cons.inj heq).1

theorem met_append_notes (entries : Log) :
    Met condition (trace ++ entries.map Event.note) ↔ Met condition trace := by
  induction trace with
  | nil =>
    refine iff_of_false ?_ not_met_nil
    cases entries with
    | nil => exact not_met_nil
    | cons entry entries => exact not_met_cons fun _ => Event.noConfusion
  | cons event rest ih =>
    rw [List.cons_append]
    cases event with
    | status status => rw [met_cons_status, met_cons_status, ih]
    | _ =>
      exact iff_of_false (not_met_cons fun _ => Event.noConfusion) (not_met_cons fun _ => Event.noConfusion)

instance decidableMet (condition : Condition) : (trace : Trace) → Decidable (Met condition trace)
  | [] => .isFalse not_met_nil
  | .status _ :: rest =>
    have := decidableMet condition rest
    decidable_of_iff _ met_cons_status.symm
  | .call _ :: _ | .await _ :: _ | .config _ _ :: _ | .pin _ :: _ | .pinRefused _ :: _ | .pause _ :: _
  | .note _ :: _ => .isFalse (not_met_cons fun _ => Event.noConfusion)

/-- Every wait was met and the pin never refused. -/
def Smooth : Trace → Prop
  | [] => True
  | .await condition :: rest => Met condition rest ∧ Smooth rest
  | .pinRefused _ :: _ => False
  | _ :: rest => Smooth rest

instance decidableSmooth : (trace : Trace) → Decidable trace.Smooth
  | [] => .isTrue trivial
  | .await condition :: rest =>
    have := decidableSmooth rest
    inferInstanceAs (Decidable (Met condition rest ∧ Smooth rest))
  | .pinRefused _ :: _ => .isFalse id
  | .call _ :: rest | .status _ :: rest | .config _ _ :: rest | .pin _ :: rest | .pause _ :: rest
  | .note _ :: rest => decidableSmooth rest

theorem smooth_append (hfront : front.Smooth) : Smooth (front ++ back) ↔ back.Smooth := by
  induction front with
  | nil => exact Iff.rfl
  | cons event rest ih =>
    cases event with
    | await condition =>
      obtain ⟨hmet, hrest⟩ := hfront
      exact ⟨fun h => (ih hrest).1 h.2, fun h => ⟨hmet.append back, (ih hrest).2 h⟩⟩
    | pinRefused high => exact hfront.elim
    | _ => exact ih hfront

theorem smooth_notes (entries : Log) : Smooth (entries.map Event.note) := by
  induction entries with
  | nil => trivial
  | cons entry entries ih => exact ih

theorem smooth_statuses (seen : List Signals) : Smooth (seen.map Event.status) := by
  induction seen with
  | nil => trivial
  | cons status seen ih => exact ih

theorem smooth_append_notes (entries : Log) :
    Smooth (trace ++ entries.map Event.note) ↔ trace.Smooth := by
  induction trace with
  | nil => exact iff_of_true (smooth_notes entries) trivial
  | cons event rest ih =>
    cases event with
    | await condition => exact and_congr (met_append_notes entries) ih
    | pinRefused high => exact Iff.rfl
    | _ => exact ih

theorem Answered.smooth (h : trace.Answered condition) : trace.Smooth := by
  obtain ⟨missed, found, rfl, -, hholds⟩ := h
  refine ⟨⟨missed, found, [], ?_, hholds⟩, smooth_statuses _⟩
  exact List.map_append

theorem Answered.acts_eq (h : trace.Answered condition) : trace.acts = [.await condition] := by
  obtain ⟨missed, found, rfl, -⟩ := h
  exact congrArg (Event.await condition :: ·) (acts_statuses _)

theorem GivenUp.acts_eq (h : trace.GivenUp expired) : trace.acts = [.await expired.condition] := by
  obtain ⟨missed, rfl, -⟩ := h
  exact congrArg (Event.await expired.condition :: ·) (acts_statuses _)

theorem GivenUp.not_smooth (h : trace.GivenUp expired) : ¬ trace.Smooth := by
  obtain ⟨missed, rfl, -, hmissed⟩ := h
  rintro ⟨hmet, -⟩
  induction missed with
  | nil => exact not_met_nil hmet
  | cons status missed ih =>
    obtain ⟨hstatus, hrest⟩ := List.forall_mem_cons.1 hmissed
    rcases met_cons_status.1 hmet with hholds | hmet
    · rw [hstatus] at hholds
      cases hholds
    · exact ih hrest hmet

/-- The last step of a script that failed: a wait that was given up or a level that was refused. The
script failed with just that. -/
def Breaks (power : Power) (ending : Ending α) (trace : Trace) : Prop :=
  (∃ expired, trace.GivenUp expired ∧ ending.Expires power expired) ∨
    ∃ high, trace = [.pinRefused high] ∧ ending = .failed (.config .pinRefused)

end Trace

/-! ## One run -/

namespace Script

variable {hardware : Hardware σ} {other : Hardware τ} {budget : Budget} {patience : Nat}

theorem run_wait (hardware : Hardware σ) (budget : Budget) (patience : Nat) (condition : Condition)
    (state : State) (world : σ) :
    let run := (wait condition).run hardware budget patience state world
    run.state = state ∧ run.hardware = hardware.replay world run.trace ∧
      (run.ending = .ok () ∧ run.trace.Answered condition ∨ ∃ expired, expired.condition = condition ∧
        run.trace.GivenUp expired ∧ run.ending.Expires run.state.power expired) := by
  intro run
  let machine : Machine σ := ⟨hardware, budget, patience⟩
  let all : Limits := ⟨fun _ => True, fun _ _ => True, fun _ => True⟩
  obtain ⟨part, hstate, htrace, hends⟩ := (Leaves.wait condition).ends machine ⟨state, world, []⟩
  obtain rfl : run.trace = part := htrace
  have hwithin : (wait condition).Within all state := ⟨trivial, trivial⟩
  have haccounts : Moment.Accounts machine.hardware world ⟨state, world, []⟩ := rfl
  have hreplays : (machine.play (wait condition) ⟨state, world, []⟩).2.Accounts hardware world :=
    hwithin.replays haccounts
  refine ⟨hstate, hreplays, hends.imp_right ?_⟩
  rintro ⟨expired, ⟨hcondition, hgivenUp⟩, hexpires⟩
  have hpower : run.state.power = state.power := congrArg State.power hstate
  refine ⟨expired, hcondition, hgivenUp, ?_⟩
  rw [hpower]
  exact hexpires

theorem run_await (hardware : Hardware σ) (budget : Budget) (patience : Nat) (condition : Condition)
    (rest : Script α) (state : State) (world : σ) :
    let run := (await condition rest).run hardware budget patience state world
    (∃ seen : Trace, seen.Answered condition ∧
        run = (rest.run hardware budget patience state (hardware.replay world seen)).after seen) ∨
      ∃ expired, expired.condition = condition ∧ run.trace.GivenUp expired ∧
        run.ending.Expires run.state.power expired := by
  intro run
  have hrun : run = _ := run_bind hardware budget patience (wait condition) (fun _ => rest) state world
  obtain ⟨hstate, hworld, ⟨hok, hanswered⟩ | ⟨expired, hcondition, hgivenUp, hexpires⟩⟩ :=
    run_wait hardware budget patience condition state world
  · refine .inl ⟨_, hanswered, ?_⟩
    rw [hrun, Run.andThen, hok]
    dsimp only
    rw [hstate, hworld]
  · refine .inr ⟨expired, hcondition, ?_⟩
    rw [hrun, Run.andThen]
    generalize (wait condition).run hardware budget patience state world = waited at hgivenUp hexpires
    cases hending : waited.ending with
    | ok value =>
      rw [hending] at hexpires
      exact hexpires.elim
    | failed error =>
      rw [hending] at hexpires
      exact ⟨hgivenUp, hexpires⟩
    | stalled => exact ⟨hgivenUp, trivial⟩

/-- **What fails, fails last.** -/
theorem run_smooth_or_breaks (hardware : Hardware σ) (budget : Budget) (patience : Nat) (s : Script α)
    (state : State) (world : σ) :
    let run := s.run hardware budget patience state world
    run.trace.Smooth ∨ ∃ front last, run.trace = front ++ last ∧ front.Smooth ∧
      last.Breaks run.state.power run.ending := by
  -- what happens before a run that ends so leaves it so
  have hafter {run : Run σ α} {earlier : Trace} (hearlier : earlier.Smooth)
      (h : run.trace.Smooth ∨ ∃ front last, run.trace = front ++ last ∧ front.Smooth ∧
        last.Breaks run.state.power run.ending) :
      (run.after earlier).trace.Smooth ∨ ∃ front last, (run.after earlier).trace = front ++ last ∧
        front.Smooth ∧ last.Breaks run.state.power run.ending := by
    refine h.imp (Trace.smooth_append hearlier).2 ?_
    rintro ⟨front, last, htrace, hfront, hlast⟩
    refine ⟨earlier ++ front, last, ?_, (Trace.smooth_append hearlier).2 hfront, hlast⟩
    rw [Run.after, htrace, List.append_assoc]
  induction s generalizing state world with
  | done value => exact .inl trivial
  | fail error => exact .inl trivial
  | note entries rest ih => exact hafter (Trace.smooth_notes entries) (ih state world)
  | call step rest ih =>
    exact hafter (Trace.smooth_notes (hardware.remarks step)) (ih state (hardware.apply step world))
  | await condition rest ih =>
    rcases run_await hardware budget patience condition rest state world with
      ⟨seen, hanswered, hrun⟩ | ⟨expired, -, hgivenUp, hexpires⟩
    · rw [hrun]
      exact hafter hanswered.smooth (ih state _)
    · exact .inr ⟨[], _, rfl, trivial, .inl ⟨expired, hgivenUp, hexpires⟩⟩
  | config register rest ih =>
    have hread : Trace.Smooth [.config register (hardware.config register world)] := trivial
    exact hafter hread (ih _ state world)
  | pin high rest ih =>
    have htaken : Trace.Smooth [.pin high] := trivial
    rw [run]
    rcases hardware.drive high world with ⟨taken, later⟩
    cases taken with
    | true => exact hafter htaken (ih state later)
    | false => exact .inr ⟨[], _, rfl, trivial, .inr ⟨high, rfl, rfl⟩⟩
  | pause ms rest ih =>
    have hpaused : Trace.Smooth [.pause ms] := trivial
    exact hafter hpaused (ih state world)
  | look rest ih => exact ih state state world
  | store later rest ih => exact ih later world

end Script

/-! ## Two runs -/

/-- If the one run is smooth, the other did the front of it, or all of it to the same end. -/
structure Run.Outlasts (whole : Run σ α) (cut : Run τ α) : Prop where
  acts : whole.trace.Smooth → cut.trace.acts <+: whole.trace.acts
  same : whole.trace.Smooth → cut.trace.Smooth →
    cut.ending = whole.ending ∧ cut.state = whole.state ∧ cut.trace.acts = whole.trace.acts

namespace Run.Outlasts

variable {whole : Run σ α} {cut : Run τ α} {front front' : Trace}

theorem after (h : whole.Outlasts cut) (hfront : front.Smooth) (hfront' : front'.Smooth)
    (hacts : front'.acts = front.acts) : (whole.after front).Outlasts (cut.after front') := by
  constructor
  · intro hsmooth
    have hprefix := h.acts ((Trace.smooth_append hfront).1 hsmooth)
    rw [Run.after, Run.after, Trace.acts_append, Trace.acts_append, hacts]
    exact (List.prefix_append_right_inj _).2 hprefix
  · intro hsmooth hsmooth'
    obtain ⟨hending, hstate, hrest⟩ :=
      h.same ((Trace.smooth_append hfront).1 hsmooth) ((Trace.smooth_append hfront').1 hsmooth')
    refine ⟨hending, hstate, ?_⟩
    rw [Run.after, Run.after, Trace.acts_append, Trace.acts_append, hacts, hrest]

theorem of_not_smooth (h : ¬ whole.trace.Smooth) : whole.Outlasts cut :=
  ⟨fun hsmooth => absurd hsmooth h, fun hsmooth => absurd hsmooth h⟩

theorem of_broken (h : ¬ cut.trace.Smooth) (hacts : cut.trace.acts <+: whole.trace.acts) :
    whole.Outlasts cut :=
  ⟨fun _ => hacts, fun _ hsmooth => absurd hsmooth h⟩

theorem of_eq (hending : cut.ending = whole.ending) (hstate : cut.state = whole.state)
    (hacts : cut.trace.acts = whole.trace.acts) : whole.Outlasts cut :=
  ⟨fun _ => hacts ▸ List.prefix_refl _, fun _ _ => ⟨hending, hstate, hacts⟩⟩

end Run.Outlasts

theorem Script.run_outlasts {hardware : Hardware σ} {other : Hardware τ}
    {registers : List Call → Register → UInt32} {world : σ} {world' : τ}
    (hwhole : hardware.ReadsBack world registers) (hcut : other.ReadsBack world' registers)
    (budget : Budget) (patience patience' : Nat) (s : Script α) (state : State) :
    (s.run hardware budget patience state world).Outlasts
      (s.run other budget patience' state world') := by
  induction s generalizing registers world world' state with
  | done value => exact .of_eq rfl rfl rfl
  | fail error => exact .of_eq rfl rfl rfl
  | note entries rest ih =>
    exact (ih hwhole hcut state).after (Trace.smooth_notes entries) (Trace.smooth_notes entries) rfl
  | call step rest ih =>
    refine (ih (hwhole.after [.call step]) (hcut.after [.call step]) state).after
      (Trace.smooth_notes (hardware.remarks step)) (Trace.smooth_notes (other.remarks step)) ?_
    exact congrArg (Event.call step :: ·) ((Trace.acts_notes _).trans (Trace.acts_notes _).symm)
  | await condition rest ih =>
    rcases run_await hardware budget patience condition rest state world with
      ⟨seen, hseen, hrun⟩ | ⟨expired, -, hgivenUp, -⟩
    · rcases run_await other budget patience' condition rest state world' with
        ⟨seen', hseen', hrun'⟩ | ⟨expired, rfl, hgivenUp, -⟩
      · -- both waits were answered
        rw [hrun, hrun']
        have hafter := hwhole.after seen
        have hafter' := hcut.after seen'
        rw [hseen.calls_eq] at hafter
        rw [hseen'.calls_eq] at hafter'
        exact (ih hafter hafter' state).after hseen.smooth hseen'.smooth
          (hseen'.acts_eq.trans hseen.acts_eq.symm)
      · refine .of_broken hgivenUp.not_smooth ?_
        rw [hrun, hgivenUp.acts_eq, Run.after, Trace.acts_append, hseen.acts_eq]
        exact List.prefix_append _ _
    · exact .of_not_smooth hgivenUp.not_smooth
  | config register rest ih =>
    have hvalue : other.config register world' = hardware.config register world :=
      (hcut [] register).trans (hwhole [] register).symm
    rw [run, run, hvalue]
    exact (ih _ hwhole hcut state).after trivial trivial rfl
  | pin high rest ih =>
    rw [run, run]
    have hafter := hwhole.after [.pin high]
    have hafter' := hcut.after [.pin high]
    simp only [Hardware.replay, List.foldl_cons, List.foldl_nil, Hardware.react] at hafter hafter'
    rcases hdrive : hardware.drive high world with ⟨taken, later⟩
    rcases hdrive' : other.drive high world' with ⟨taken', later'⟩
    rw [hdrive] at hafter
    rw [hdrive'] at hafter'
    cases taken with
    | false => exact .of_not_smooth id
    | true =>
      cases taken' with
      | false => exact .of_broken id (List.nil_prefix)
      | true => exact (ih hafter hafter' state).after trivial trivial rfl
  | pause ms rest ih => exact (ih hwhole hcut state).after trivial trivial rfl
  | look rest ih => exact ih state hwhole hcut state
  | store later rest ih => exact ih hwhole hcut later

end BootLogo
