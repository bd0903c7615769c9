import BootLogo.Proofs.Compositor.PowerUp
import BootLogo.Proofs.Session.History
import BootLogo.Proofs.Session.Running

/-!
# When the panel is waited for

A picture that is displayed lets the panel power up, once after it was shown and before the backlight is
driven, exactly if the backlight has not been lit since the controller was last taken down. Nothing else lets
time pass (`Operated.delays_once`).

* `Return`: the calls that count, once they have returned. `LitSince`: the backlight has been lit.
* `Part`: an operation as the sequence of its calls, so that `returned` tells which of them returned, also if
  the operation failed.
* `Operated`: any operations one after the other, each on any hardware.
-/

namespace BootLogo

open Compositor (State)
open Script

variable {σ : Type}

/-! ## What has returned -/

/-- A call that returned. -/
inductive Return where
  | tearDown
  | backlight (level : UInt8)
  deriving DecidableEq

/-- The backlight was driven to a level that is not zero since the controller was last taken down. -/
def LitSince (history : List Return) : Prop :=
  ∃ earlier level later, history = earlier ++ .backlight level :: later ∧ level ≠ 0 ∧ .tearDown ∉ later

/-- Whether the backlight is lit after a call returned. -/
def Return.leaves : Return → Bool → Bool
  | .tearDown, _ => false
  | .backlight level, lit => decide (level ≠ 0) || lit

/-- Whether the backlight is lit after some calls. -/
def litAfter (lit : Bool) (history : List Return) : Bool :=
  history.foldl (fun lit made => made.leaves lit) lit

variable {history : List Return}

theorem litSince_cons {made : Return} : LitSince (made :: history) ↔
    LitSince history ∨ ∃ level, made = .backlight level ∧ level ≠ 0 ∧ .tearDown ∉ history := by
  constructor
  · rintro ⟨earlier, level, later, heq, hlevel, hlater⟩
    cases earlier with
    | nil =>
      obtain ⟨rfl, rfl⟩ := List.cons.inj heq
      exact .inr ⟨level, rfl, hlevel, hlater⟩
    | cons first earlier =>
      obtain ⟨rfl, rfl⟩ := List.cons.inj heq
      exact .inl ⟨earlier, level, later, rfl, hlevel, hlater⟩
  · rintro (⟨earlier, level, later, rfl, hlevel, hlater⟩ | ⟨level, rfl, hlevel, hlater⟩)
    · exact ⟨made :: earlier, level, later, rfl, hlevel, hlater⟩
    · exact ⟨[], level, history, rfl, hlevel, hlater⟩

theorem litAfter_iff (lit : Bool) :
    litAfter lit history = true ↔ LitSince history ∨ lit = true ∧ .tearDown ∉ history := by
  induction history generalizing lit with
  | nil =>
    have hnone : ¬ LitSince [] := by
      rintro ⟨earlier, level, later, heq, -⟩
      exact absurd heq.symm (List.append_ne_nil_of_right_ne_nil earlier (List.cons_ne_nil _ _))
    simp [litAfter, hnone]
  | cons made history ih =>
    have hnext : litAfter lit (made :: history) = litAfter (made.leaves lit) history := rfl
    rw [hnext, ih, litSince_cons]
    cases made with
    | tearDown => simp [Return.leaves]
    | backlight level =>
      by_cases hlevel : level = 0
      · simp [Return.leaves, hlevel]
      · simp only [Return.leaves, hlevel, ne_eq, not_false_eq_true, decide_true, Bool.true_or, true_and,
          Return.backlight.injEq, exists_eq_left', List.mem_cons, reduceCtorEq, false_or]
        exact (or_iff_left_of_imp fun hlit => .inr hlit.2).symm

theorem litAfter_append (lit : Bool) (earlier later : List Return) :
    litAfter lit (earlier ++ later) = litAfter (litAfter lit earlier) later :=
  List.foldl_append

theorem litSince_iff : LitSince history ↔ litAfter false history = true := by
  rw [litAfter_iff]
  simp

/-! ## The parts of an operation -/

/-- A part of an operation, and what it counts as once it has returned. -/
structure Part where
  counts : Option Return
  script : Script Unit

namespace Part

def leaves (part : Part) (lit : Bool) : Bool :=
  match part.counts with
  | some made => made.leaves lit
  | none => lit

/-- The parts one after the other. -/
def sequence (parts : List Part) : Script Unit := Script.each script parts

/-- What has returned when the parts are played, up to the first that fails. -/
def returned (machine : Machine σ) : List Part → Moment σ → List Return
  | [], _ => []
  | part :: rest, moment =>
    match machine.play part.script moment with
    | (.ok _, later) => part.counts.toList ++ returned machine rest later
    | _ => []

theorem sequence_append (front back : List Part) :
    sequence (front ++ back) = (sequence front).bind fun _ => sequence back := by
  induction front with
  | nil => rfl
  | cons part front ih =>
    show (part.script.bind fun _ => sequence (front ++ back)) = (part.script.bind _).bind _
    rw [ih, bind_assoc]
    rfl

/-- What is remembered follows from what has returned. -/
theorem lit_sequence (machine : Machine σ) {parts : List Part}
    (hparts : ∀ part ∈ parts, Compositor.Relights part.script part.leaves) (moment : Moment σ) :
    (machine.play (sequence parts) moment).2.state.lit =
      litAfter moment.state.lit (returned machine parts moment) := by
  induction parts generalizing moment with
  | nil => exact congrArg (·.2.state.lit) (machine.play_done moment ())
  | cons part rest ih =>
    have hpart := (hparts part List.mem_cons_self).ends machine moment
    have hrest (other : Part) (hother : other ∈ rest) : Compositor.Relights other.script other.leaves :=
      hparts other (List.mem_cons_of_mem _ hother)
    show (machine.play (part.script.bind fun _ => sequence rest) moment).2.state.lit = _
    rw [Machine.play_bind, returned]
    generalize machine.play part.script moment = played at hpart ⊢
    obtain ⟨ending, later⟩ := played
    cases ending with
    | ok value =>
      have hleaves : litAfter moment.state.lit part.counts.toList = part.leaves moment.state.lit := by
        rw [leaves]
        cases part.counts <;> rfl
      show (machine.play (sequence rest) later).2.state.lit =
        litAfter moment.state.lit (part.counts.toList ++ returned machine rest later)
      rw [ih hrest, litAfter_append, hleaves]
      exact congrArg (litAfter · _) hpart
    | failed error => exact hpart
    | stalled => exact hpart

end Part

namespace Compositor

variable {compositor : Compositor}

/-- A start: checked first, then off, timing, on, dark, base colour. -/
def initParts (compositor : Compositor) : List Part :=
  [⟨none, (Script.ofExcept (compositor.timingWords.mapError Error.config)).bind fun _ => .done ()⟩,
    ⟨some .tearDown, compositor.tearDown⟩, ⟨none, compositor.programTiming⟩,
    ⟨none, compositor.bringUp⟩, ⟨some (.backlight 0), compositor.setBacklight 0⟩,
    ⟨none, compositor.showBase compositor.board.logo.commit⟩]

/-- A picture is displayed. Lighting the backlight returns once driving it has. -/
def displayParts (compositor : Compositor) (frame : Frame) : List Part :=
  [⟨none, Script.ofExcept ((compositor.place frame.size).validate.mapError Error.geometry)⟩,
    ⟨none, compositor.showFrame frame⟩,
    ⟨some (.backlight compositor.board.logo.brightness),
      compositor.light compositor.board.logo.brightness⟩]

theorem sequence_initParts (compositor : Compositor) :
    Part.sequence compositor.initParts = compositor.init.bind fun _ => .done () := by
  simp only [Part.sequence, initParts, Script.each, bind_assoc, Script.bind]
  rw [init]
  simp only [Bind.bind, bind_assoc]

theorem sequence_displayParts (compositor : Compositor) (frame : Frame) :
    Part.sequence (compositor.displayParts frame) =
      (compositor.display frame).bind fun _ => .done () := by
  rw [display_eq]
  simp only [Part.sequence, displayParts, Script.each, bind_assoc, Script.bind]

theorem initParts_relight (compositor : Compositor) :
    ∀ part ∈ compositor.initParts, Relights part.script part.leaves := by
  simp only [initParts, List.forall_mem_cons, List.not_mem_nil, false_imp_iff, implies_true,
    and_true]
  exact ⟨.of_calm fun _ => .bind timingWords_calm fun _ _ => trivial,
    tearDown_relights, .of_calm fun _ => programTiming_calm,
    .of_calm fun _ => bringUp_calm, setBacklight_relights 0,
    .of_calm fun _ => showBase_calm _⟩

theorem displayParts_relight (compositor : Compositor) (frame : Frame) :
    ∀ part ∈ compositor.displayParts frame, Relights part.script part.leaves := by
  simp only [displayParts, List.forall_mem_cons, List.not_mem_nil, false_imp_iff, implies_true,
    and_true]
  exact ⟨.of_calm fun _ => .ofExcept fun _ _ => trivial, .of_calm fun _ => showLayer_calm _ _ _,
    light_relights _⟩

end Compositor

namespace Operation

variable {compositor : Compositor} {state : State}

/-- The parts of an operation that finds the state so. -/
def parts (compositor : Compositor) (state : State) : Operation → List Part
  | .init => compositor.initParts
  | .bringUp => [⟨none, compositor.bringUp⟩]
  | .tearDown => [⟨some .tearDown, compositor.tearDown⟩]
  | .programTiming => [⟨none, compositor.programTiming⟩]
  | .showBase mode => [⟨none, compositor.showBase mode⟩]
  | .commit layer => [⟨none, compositor.commit layer⟩]
  | .backlight level => [⟨some (.backlight level), compositor.setBacklight level⟩]
  | .showLayer frame placement mode => [⟨none, compositor.showLayer frame placement mode⟩]
  | .display frame => compositor.displayParts frame
  | .present addresses buffers =>
    let prepared := Logo.prepare compositor addresses buffers
    ⟨none, .sayAll prepared.log⟩ ::
      match prepared.result with
      | .error error => [⟨none, .fail error⟩]
      | .ok frame =>
        (if compositor.isRunning state.power then [] else compositor.initParts) ++
          compositor.displayParts frame

theorem play_parts (machine : Machine σ) (compositor : Compositor) (operation : Operation)
    (moment : Moment σ) :
    (machine.play (operation.script compositor) moment).2 =
      (machine.play (Part.sequence (operation.parts compositor moment.state)) moment).2 := by
  have hmap {α β : Type} (s : Script α) (f : α → β) (moment : Moment σ) :
      (machine.play (s.bind fun value => .done (f value)) moment).2 = (machine.play s moment).2 :=
    congrArg Prod.snd (machine.play_map moment s f)
  have hone (s : Script Unit) (counts : Option Return) :
      (machine.play (s.bind fun _ => .done (none : Option Placement)) moment).2 =
        (machine.play (Part.sequence [⟨counts, s⟩]) moment).2 :=
    (hmap s _ moment).trans (hmap s (fun _ => ()) moment).symm
  cases operation with
  | init =>
    rw [parts, Compositor.sequence_initParts]
    exact (hmap compositor.init _ moment).trans (hmap compositor.init (fun _ => ()) moment).symm
  | display frame =>
    rw [parts, Compositor.sequence_displayParts]
    exact (hmap _ some moment).trans (hmap _ (fun _ => ()) moment).symm
  | present addresses buffers =>
    rw [script, hmap, parts]
    show _ = (machine.play (.note _ (Part.sequence _)) moment).2
    rw [Machine.play_note]
    cases hresult : (Logo.prepare compositor addresses buffers).result with
    | error error =>
      rw [Logo.play_present_rejected hresult]
      exact (congrArg Prod.snd (machine.play_fail _ error)).symm
    | ok frame =>
      rw [Logo.play_present_accepted hresult]
      cases hrunning : compositor.isRunning moment.state.power with
      | true =>
        simp only [Bool.not_true, Bool.false_eq_true, if_false, if_true, List.nil_append]
        rw [Compositor.sequence_displayParts, hmap]
      | false =>
        simp only [Bool.not_false, Bool.false_eq_true, if_false, if_true]
        have hdone : ((compositor.init.bind fun _ => .done ()).bind fun _ : Unit =>
            (compositor.display frame).bind fun _ => .done ()) =
            (compositor.init.bind fun _ => compositor.display frame).bind fun _ => .done () := by
          simp only [bind_assoc, Script.bind]
        rw [Part.sequence_append, Compositor.sequence_initParts, Compositor.sequence_displayParts, hdone,
          hmap]
  | bringUp => exact hone ..
  | tearDown => exact hone ..
  | programTiming => exact hone ..
  | showBase mode => exact hone ..
  | commit layer => exact hone ..
  | backlight level => exact hone ..
  | showLayer frame placement mode => exact hone ..

theorem parts_relight (compositor : Compositor) (state : State) (operation : Operation) :
    ∀ part ∈ operation.parts compositor state, Compositor.Relights part.script part.leaves := by
  have hone {counts : Option Return} {s : Script Unit}
      (hs : Compositor.Relights s (Part.leaves ⟨counts, s⟩)) :
      ∀ part ∈ [(⟨counts, s⟩ : Part)], Compositor.Relights part.script part.leaves := by
    intro part hpart
    rw [List.mem_singleton.1 hpart]
    exact hs
  cases operation with
  | init => exact compositor.initParts_relight
  | bringUp => exact hone (.of_calm fun _ => Compositor.bringUp_calm)
  | tearDown => exact hone Compositor.tearDown_relights
  | programTiming => exact hone (.of_calm fun _ => Compositor.programTiming_calm)
  | showBase mode => exact hone (.of_calm fun _ => Compositor.showBase_calm mode)
  | commit layer => exact hone (.of_calm fun _ => Compositor.commit_calm layer)
  | backlight level => exact hone (Compositor.setBacklight_relights level)
  | showLayer frame placement mode =>
    exact hone (.of_calm fun _ => Compositor.showLayer_calm frame placement mode)
  | display frame => exact compositor.displayParts_relight frame
  | present addresses buffers =>
    rw [parts]
    refine List.forall_mem_cons.2 ⟨.of_calm fun _ => trivial, ?_⟩
    cases (Logo.prepare compositor addresses buffers).result with
    | error error => exact hone (.of_calm fun _ => trivial)
    | ok frame =>
      refine List.forall_mem_append.2 ⟨?_, compositor.displayParts_relight frame⟩
      split
      · exact fun part hpart => absurd hpart List.not_mem_nil
      · exact compositor.initParts_relight

end Operation

/-! ## Any operations -/

/-- Any operations one after the other, each on any hardware, with what has returned. -/
inductive Operated (compositor : Compositor) : List Return → State → Prop
  | start : Operated compositor [] (.initial compositor.board)
  | operate {history : List Return} {state : State} (h : Operated compositor history state) {σ : Type}
    (hardware : Hardware σ) (patience : Nat) (operation : Operation) (world : σ) :
    Operated compositor
      (history ++ Part.returned ⟨hardware, compositor.board.poll, patience⟩
        (operation.parts compositor state) ⟨state, world, []⟩)
      (operation.perform hardware patience compositor state world).state

/-- A picture that an operation displays. -/
structure DisplayCall (σ : Type) where
  frame : Frame
  /-- Where the operation stands then. -/
  start : Moment σ
  /-- What has returned before in the same operation. -/
  returned : List Return

/-- The picture that an operation displays, if it gets so far. -/
def Operation.displayCall? (machine : Machine σ) (compositor : Compositor) (state : State) (world : σ) :
    Operation → Option (DisplayCall σ)
  | .display frame => some ⟨frame, ⟨state, world, []⟩, []⟩
  | .present addresses buffers =>
    let prepared := Logo.prepare compositor addresses buffers
    let noted : Moment σ := ⟨state, world, prepared.log.map Event.note⟩
    match prepared.result with
    | .error _ => none
    | .ok frame =>
      if compositor.isRunning state.power then some ⟨frame, noted, []⟩
      else
        match machine.play compositor.init noted with
        | (.ok _, later) => some ⟨frame, later, Part.returned machine compositor.initParts noted⟩
        | _ => none
  | _ => none

namespace DisplayCall

variable (machine : Machine σ) (compositor : Compositor) (call : DisplayCall σ)

/-- How showing the picture ends, and where that leaves off. -/
def shown : Ending Unit × Moment σ := machine.play (compositor.showFrame call.frame) call.start

/-- The panel has to be waited for. -/
def Due (history : List Return) : Prop :=
  (call.shown machine compositor).1 = .ok () ∧ compositor.board.logo.brightness ≠ 0 ∧
    compositor.board.logo.backlightDelayMs ≠ 0 ∧ ¬ LitSince (history ++ call.returned)

/-- What happens when the backlight is driven after the panel was waited for. -/
def driven : Trace :=
  let shown := (call.shown machine compositor).2
  ((compositor.setBacklight compositor.board.logo.brightness).run machine.hardware machine.budget
    machine.patience shown.state shown.world).trace

theorem pauses_display (hpauses : call.start.trace.pauses = [])
    (hlit : call.start.state.lit = true ↔ LitSince (history ++ call.returned)) :
    let ms := compositor.board.logo.backlightDelayMs
    let trace := (machine.play (compositor.display call.frame) call.start).2.trace
    (call.Due machine compositor history → trace.pauses = [ms] ∧ ∃ entry,
      trace = (call.shown machine compositor).2.trace ++ [.note entry, .pause ms] ++
        call.driven machine compositor) ∧
    (¬ call.Due machine compositor history → trace.pauses = []) := by
  intro ms trace
  let entered := compositor.powerUp compositor.board.logo.brightness call.start.state.lit
  have hshown : (call.shown machine compositor).2.trace.pauses = [] :=
    (Compositor.pauses_play ((Compositor.showLayer_calm ..).mono Compositor.calm_le_unpaused)).trans hpauses
  by_cases hok : (call.shown machine compositor).1 = .ok ()
  · have htrace : trace = (machine.play (compositor.setBacklight compositor.board.logo.brightness)
        ((call.shown machine compositor).2.append entered)).2.trace :=
      congrArg Moment.trace (Compositor.play_display_shown hok)
    have hentered : trace.pauses = Trace.pauses entered := by
      rw [htrace, Compositor.pauses_play Compositor.setBacklight_unpaused]
      exact (Trace.pauses_append _ _).trans (congrArg (· ++ _) hshown)
    have hdue : call.Due machine compositor history ↔ compositor.board.logo.brightness ≠ 0 ∧
        (!call.start.state.lit) = true ∧ 0 < ms := by
      rw [Due, ← hlit, Nat.pos_iff_ne_zero]
      simp only [hok, true_and, Bool.not_eq_true, Bool.not_eq_true']
      exact and_congr_right fun _ => and_comm
    constructor
    · intro h
      have hpause : entered = [.note (.debug s!"lcdc: backlight in {ms} ms"), .pause ms] :=
        if_pos (hdue.1 h)
      rw [hentered, hpause]
      exact ⟨rfl, _, htrace.trans (by rw [hpause]; rfl)⟩
    · intro h
      have hnone : entered = [] := if_neg fun hmust => h (hdue.2 hmust)
      rw [hentered, hnone]
      rfl
  · have htrace : trace = (call.shown machine compositor).2.trace :=
      congrArg Moment.trace (Compositor.play_display_unshown hok)
    exact ⟨fun h => absurd h.1 hok, fun _ => htrace ▸ hshown⟩

end DisplayCall

/-- How a display call comes about: no time has passed, and what is remembered is what has returned. -/
structure DisplayCall.Follows (machine : Machine σ) (compositor : Compositor) (lit : Bool)
    (call : DisplayCall σ) (later : Moment σ) : Prop where
  display : later = (machine.play (compositor.display call.frame) call.start).2
  pauses : call.start.trace.pauses = []
  lit : call.start.state.lit = litAfter lit call.returned

namespace Operation

variable (machine : Machine σ) (compositor : Compositor) (state : State) (world : σ)

theorem play_present_displays (addresses : Logo.Addresses) (buffers : Logo.Buffers) :
    let later := (machine.play (Logo.present compositor addresses buffers).script ⟨state, world, []⟩).2
    match (present addresses buffers).displayCall? machine compositor state world with
    | none => later.trace.pauses = []
    | some displayed => displayed.Follows machine compositor state.lit later := by
  intro later
  let noted : Moment σ :=
    ⟨state, world, (Logo.prepare compositor addresses buffers).log.map Event.note⟩
  have hnotes : noted.trace.pauses = [] := Trace.pauses_notes _
  simp only [displayCall?]
  cases hresult : (Logo.prepare compositor addresses buffers).result with
  | error error =>
    have hlater : later = noted := congrArg Prod.snd (Logo.play_present_rejected hresult)
    rw [hlater]
    exact hnotes
  | ok frame =>
    have hlater : later = _ := congrArg Prod.snd (Logo.play_present_accepted hresult)
    cases hrunning : compositor.isRunning state.power with
    | true =>
      simp only [hrunning, Bool.not_true, Bool.false_eq_true, if_false, if_true] at hlater ⊢
      exact ⟨hlater, hnotes, rfl⟩
    | false =>
      simp only [hrunning, Bool.not_false, Bool.false_eq_true, if_false, if_true] at hlater ⊢
      have hinit : (machine.play compositor.init noted).2.trace.pauses = [] :=
        (Compositor.pauses_play Compositor.init_unpaused).trans hnotes
      have hlit := Part.lit_sequence machine compositor.initParts_relight noted
      rw [Compositor.sequence_initParts, Machine.play_map] at hlit
      change later = (machine.play (compositor.init.bind _) noted).2 at hlater
      rw [Machine.play_bind] at hlater
      rcases hplayed : machine.play compositor.init noted with ⟨ending, started⟩
      rw [hplayed] at hlater hinit hlit
      cases ending with
      | ok value => exact ⟨hlater, hinit, hlit⟩
      | failed error => exact hlater ▸ hinit
      | stalled => exact hlater ▸ hinit

theorem play_displays (operation : Operation) :
    let later := (machine.play (operation.script compositor) ⟨state, world, []⟩).2
    match operation.displayCall? machine compositor state world with
    | none => later.trace.pauses = []
    | some displayed => displayed.Follows machine compositor state.lit later := by
  have hstill {s : Script (Option Placement)} (hs : s.Within Compositor.unpaused state) :
      (machine.play s ⟨state, world, []⟩).2.trace.pauses = [] := Compositor.pauses_play hs
  have hnone {s : Script Unit} (hs : s.Within Compositor.unpaused state) :
      (s.bind fun _ => .done (none : Option Placement)).Within Compositor.unpaused state :=
    .bind hs fun _ _ => trivial
  have hcalm {s : Script Unit} (hs : s.Within Compositor.calm state) :
      (s.bind fun _ => .done (none : Option Placement)).Within Compositor.unpaused state :=
    hnone (hs.mono Compositor.calm_le_unpaused)
  cases operation with
  | init => exact hstill (hnone Compositor.init_unpaused)
  | bringUp => exact hstill (hcalm Compositor.bringUp_calm)
  | tearDown => exact hstill (hnone Compositor.tearDown_unpaused)
  | programTiming => exact hstill (hcalm Compositor.programTiming_calm)
  | showBase mode => exact hstill (hcalm (Compositor.showBase_calm mode))
  | commit layer => exact hstill (hcalm (Compositor.commit_calm layer))
  | backlight level => exact hstill (hnone Compositor.setBacklight_unpaused)
  | showLayer frame placement mode => exact hstill (hcalm (Compositor.showLayer_calm frame placement mode))
  | display frame => exact ⟨congrArg Prod.snd (machine.play_map _ _ _), rfl, rfl⟩
  | present addresses buffers =>
    have hdisplays := play_present_displays machine compositor state world addresses buffers
    rw [script, Machine.play_map]
    exact hdisplays

end Operation

namespace Operated

variable {compositor : Compositor} {state : State}

theorem lit (h : Operated compositor history state) : state.lit = litAfter false history := by
  induction h with
  | start => rfl
  | @operate history state h τ hardware patience operation world ih =>
    let machine : Machine τ := ⟨hardware, compositor.board.poll, patience⟩
    have hplay := operation.play_parts machine compositor ⟨state, world, []⟩
    have hlit := Part.lit_sequence machine (operation.parts_relight compositor state) ⟨state, world, []⟩
    rw [litAfter_append, ← ih]
    exact (congrArg (·.state.lit) hplay).trans hlit

/-- **The panel is waited for exactly once** between a picture and the light behind it, if the backlight has
not been lit since the controller was last taken down, and no other operation lets time pass. -/
theorem delays_once (h : Operated compositor history state) (hardware : Hardware σ) (patience : Nat)
    (operation : Operation) (world : σ) :
    let machine : Machine σ := ⟨hardware, compositor.board.poll, patience⟩
    let ms := compositor.board.logo.backlightDelayMs
    let run := operation.perform hardware patience compositor state world
    match operation.displayCall? machine compositor state world with
    | none => run.trace.pauses = []
    | some displayed =>
      (displayed.Due machine compositor history → run.trace.pauses = [ms] ∧
        ∃ (entry : Log.Entry) (closing : Log),
          run.trace = (displayed.shown machine compositor).2.trace ++ [.note entry, .pause ms] ++
            displayed.driven machine compositor ++ closing.map Event.note) ∧
      (¬ displayed.Due machine compositor history → run.trace.pauses = []) := by
  intro machine ms run
  let later := (machine.play (operation.script compositor) ⟨state, world, []⟩).2
  have hpauses : run.trace.pauses = later.trace.pauses := by
    show Trace.pauses (later.trace ++ List.map _ _) = _
    rw [Trace.pauses_append, Trace.pauses_notes, List.append_nil]
  have hdisplays := operation.play_displays machine compositor state world
  cases hcall : operation.displayCall? machine compositor state world with
  | none =>
    rw [hcall] at hdisplays
    exact hpauses.trans hdisplays
  | some displayed =>
    rw [hcall] at hdisplays
    obtain ⟨hdisplay, hbefore, hlit⟩ := hdisplays
    have hsince : displayed.start.state.lit = true ↔ LitSince (history ++ displayed.returned) := by
      rw [litSince_iff, litAfter_append, ← h.lit, hlit]
    obtain ⟨hdue, hnot⟩ := displayed.pauses_display machine compositor hbefore hsince
    rw [← hdisplay] at hdue hnot
    refine ⟨fun hwait => ?_, fun hwait => hpauses.trans (hnot hwait)⟩
    obtain ⟨hms, entry, htrace⟩ := hdue hwait
    exact ⟨hpauses.trans hms, entry, _, congrArg (· ++ List.map _ _) htrace⟩

end Operated

namespace Compositor

/-- Shows the square on a board that was started. -/
def hastyShown : Run Recorder (Option Placement) :=
  (Operation.display (square 4)).perform Recorder.hardware 1 hasty hastyStart.state hastyStart.hardware

theorem delays_hastyShown :
    hastyShown.trace.pauses = [100] ∧
      ((Operation.display (square 4)).perform Recorder.hardware 1 hasty hastyShown.state
        hastyShown.hardware).trace.pauses = [] := by
  have hstart : Operated hasty _ hastyStart.state := .operate .start Recorder.hardware 1 .init .fresh
  have hshown := hstart.operate Recorder.hardware 1 (.display (square 4)) hastyStart.hardware
  have hfirst := hstart.delays_once Recorder.hardware 1 (.display (square 4)) hastyStart.hardware
  have hsecond := hshown.delays_once Recorder.hardware 1 (.display (square 4)) hastyShown.hardware
  refine ⟨(hfirst.1 ⟨rfl, by decide, by decide, ?_⟩).1, hsecond.2 fun hdue => hdue.2.2.2 ?_⟩
  · rw [litSince_iff]
    decide +kernel
  · rw [litSince_iff]
    decide +kernel

end Compositor

end BootLogo
