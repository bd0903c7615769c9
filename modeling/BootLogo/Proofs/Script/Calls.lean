import BootLogo.Script.Run

/-!
# The calls that a script makes

* `run_bind`: a sequence runs its first script and then, if that ended well, the second from where the
  first one stopped.
* `Plays`: on hardware that answers every wait a script makes these calls and leaves this state. If a wait
  is not answered, what was called until then is the front of it.
-/

namespace BootLogo

open Compositor (State)

variable {σ α β : Type}

theorem Trace.calls_append (earlier later : Trace) :
    Trace.calls (earlier ++ later) = Trace.calls earlier ++ Trace.calls later :=
  List.filterMap_append

theorem Trace.mem_calls {call : Call} {trace : Trace} : call ∈ trace.calls ↔ .call call ∈ trace := by
  rw [Trace.calls, List.mem_filterMap]
  constructor
  · rintro ⟨event, hevent, hcall⟩
    split at hcall
    · rwa [← Option.some.inj hcall]
    · cases hcall
  · intro hcall
    exact ⟨.call call, hcall, rfl⟩

theorem Trace.calls_map_eq_nil {event : α → Event} (h : ∀ a call, event a ≠ .call call) (list : List α) :
    Trace.calls (list.map event) = [] := by
  rw [Trace.calls, List.filterMap_eq_nil_iff]
  intro happened hmem
  obtain ⟨a, -, rfl⟩ := List.mem_map.1 hmem
  split
  · rename_i call heq
    exact absurd heq (h a call)
  · rfl

theorem Trace.calls_map_note (entries : Log) : Trace.calls (entries.map Event.note) = [] :=
  Trace.calls_map_eq_nil (fun _ _ => Event.noConfusion) entries

theorem Trace.calls_map_status (seen : List Signals) : Trace.calls (seen.map Event.status) = [] :=
  Trace.calls_map_eq_nil (fun _ _ => Event.noConfusion) seen

/-! ## Sequences -/

/-- A wait was given up. -/
def Ending.Unanswered : Ending α → Prop
  | .ok _ => False
  | .failed error => ∃ power expired, error = .timeout power expired
  | .stalled => True

/-- What comes after a run, if the run ended well. -/
def Run.andThen (first : Run σ α) (next : α → State → σ → Run σ β) : Run σ β :=
  match first.ending with
  | .ok value => (next value first.state first.hardware).after first.trace
  | .failed error => ⟨.failed error, first.state, first.hardware, first.trace⟩
  | .stalled => ⟨.stalled, first.state, first.hardware, first.trace⟩

theorem Run.after_andThen (first : Run σ α) (earlier : Trace) (next : α → State → σ → Run σ β) :
    (first.after earlier).andThen next = (first.andThen next).after earlier := by
  cases hending : first.ending with
  | ok value => simp only [andThen, after, hending, List.append_assoc]
  | failed error => simp only [andThen, after, hending]
  | stalled => simp only [andThen, after, hending]

namespace Script

theorem bind_assoc {γ : Type} (s : Script α) (next : α → Script β) (last : β → Script γ) :
    (s.bind next).bind last = s.bind fun value => (next value).bind last := by
  induction s with
  | done value => rfl
  | fail error => rfl
  | note entries rest ih => exact congrArg (note entries) ih
  | call step rest ih => exact congrArg (call step) ih
  | await condition rest ih => exact congrArg (await condition) ih
  | config register rest ih => exact congrArg (config register) (funext ih)
  | pin high rest ih => exact congrArg (pin high) ih
  | pause ms rest ih => exact congrArg (pause ms) ih
  | look rest ih => exact congrArg look (funext ih)
  | store later rest ih => exact congrArg (store later) ih

theorem run_bind (hardware : Hardware σ) (budget : Budget) (patience : Nat) (s : Script α)
    (next : α → Script β) (state : State) (world : σ) :
    (s.bind next).run hardware budget patience state world =
      (s.run hardware budget patience state world).andThen fun value later world =>
        (next value).run hardware budget patience later world := by
  induction s generalizing state world with
  | done value => rfl
  | fail error => rfl
  | note entries rest ih => rw [bind, run, run, ih, Run.after_andThen]
  | call step rest ih => rw [bind, run, run, ih, Run.after_andThen]
  | await condition rest ih =>
    simp only [bind, run]
    cases hwait : (Wait.poll hardware.status condition budget patience world).ending with
    | met reads => simp only [ih, Run.after_andThen]
    | timedOut expired => rfl
    | unanswered => rfl
  | config register rest ih =>
    simp only [bind, run]
    rw [ih, Run.after_andThen]
  | pin high rest ih =>
    simp only [bind, run]
    rcases hdrive : hardware.drive high world with ⟨taken, later⟩
    cases taken with
    | true => simp only [ih, Run.after_andThen]
    | false => rfl
  | pause ms rest ih => rw [bind, run, run, ih, Run.after_andThen]
  | look rest ih =>
    simp only [bind, run]
    exact ih state state world
  | store later rest ih =>
    simp only [bind, run]
    exact ih later world

/-! ## The calls of a script whose waits are answered -/

/-- A script that fails only if a wait is not answered: it makes these calls and leaves this value and this
state, or it makes the first of the calls and gives up on a wait. -/
structure Plays (s : Script α) (before : State) (value : α) (after : State) (calls : List Call) :
    Prop where
  ends : ∀ {σ : Type} (hardware : Hardware σ) (budget : Budget) (patience : Nat) (world : σ),
    let run := s.run hardware budget patience before world
    (run.ending = .ok value ∧ run.state = after ∧ run.trace.calls = calls) ∨
      (run.ending.Unanswered ∧ run.trace.calls <+: calls)

theorem Plays.of_ok {s : Script α} {before after : State} {value : α} {calls : List Call}
    (hs : s.Plays before value after calls) (hardware : Hardware σ) (budget : Budget) (patience : Nat)
    (world : σ) (result : α)
    (hok : (s.run hardware budget patience before world).ending = .ok result) :
    result = value ∧ (s.run hardware budget patience before world).state = after ∧
      (s.run hardware budget patience before world).trace.calls = calls := by
  rcases hs.ends hardware budget patience world with ⟨hending, hstate, hcalls⟩ | ⟨hwait, -⟩
  · rw [hending] at hok
    exact ⟨(Ending.ok.inj hok).symm, hstate, hcalls⟩
  · rw [hok] at hwait
    exact hwait.elim

theorem Plays.bind {s : Script α} {next : α → Script β} {before mid after : State} {value : α}
    {result : β} {calls more : List Call} (hs : s.Plays before value mid calls)
    (hnext : (next value).Plays mid result after more) :
    (s.bind next).Plays before result after (calls ++ more) := by
  constructor
  intro σ hardware budget patience world run
  have hrun : run = (s.run hardware budget patience before world).andThen fun value later world =>
      (next value).run hardware budget patience later world :=
    run_bind hardware budget patience s next before world
  rcases hs.ends hardware budget patience world with ⟨hending, hmid, hcalls⟩ | ⟨hwait, hprefix⟩
  · simp only [hrun, Run.andThen, hending, hmid, Run.after, Trace.calls_append, hcalls]
    rcases hnext.ends hardware budget patience _ with ⟨hlast, hafter, hmore⟩ | ⟨hwait, hprefix⟩
    · exact .inl ⟨hlast, hafter, congrArg (calls ++ ·) hmore⟩
    · exact .inr ⟨hwait, (List.prefix_append_right_inj calls).2 hprefix⟩
  · refine .inr ?_
    rw [hrun, Run.andThen]
    cases hending : (s.run hardware budget patience before world).ending with
    | ok first =>
      rw [hending] at hwait
      exact hwait.elim
    | failed error =>
      rw [hending] at hwait
      exact ⟨hwait, hprefix.trans (List.prefix_append calls more)⟩
    | stalled => exact ⟨trivial, hprefix.trans (List.prefix_append calls more)⟩

theorem Plays.andThen {s : Script α} {next : Script β} {before mid after : State} {value : α}
    {result : β} {calls more : List Call} (hs : s.Plays before value mid calls)
    (hnext : next.Plays mid result after more) :
    (s.bind fun _ => next).Plays before result after (calls ++ more) :=
  hs.bind hnext

theorem Plays.done (value : α) (state : State) : (Script.done value).Plays state value state [] :=
  ⟨fun _ _ _ _ => .inl ⟨rfl, rfl, rfl⟩⟩

theorem Plays.ofExcept {ε : Type} {result : Except ε α} {wrap : ε → Error} {value : α}
    (h : result = .ok value) (state : State) :
    (Script.ofExcept (result.mapError wrap)).Plays state value state [] := by
  rw [h]
  exact Plays.done value state

theorem Plays.say (entry : Log.Entry) (state : State) : (say entry).Plays state () state [] :=
  ⟨fun _ _ _ _ => .inl ⟨rfl, rfl, rfl⟩⟩

theorem Plays.perform (step : Call) (state : State) :
    (perform step).Plays state () state [step] := by
  constructor
  intro σ hardware budget patience world
  refine .inl ⟨rfl, rfl, ?_⟩
  change Trace.calls (.call step :: (hardware.remarks step).map Event.note ++ []) = [step]
  rw [List.append_nil]
  exact congrArg (step :: ·) (Trace.calls_map_note (hardware.remarks step))

theorem Plays.wait (condition : Condition) (state : State) :
    (wait condition).Plays state () state [] := by
  constructor
  intro σ hardware budget patience world
  simp only [Script.wait, run]
  have hcalls (seen : List Signals) : Trace.calls (.await condition :: seen.map Event.status) = [] :=
    Trace.calls_map_status seen
  cases (Wait.poll hardware.status condition budget patience world).ending with
  | met reads =>
    simp only [Run.after, List.append_nil]
    exact .inl ⟨trivial, trivial, hcalls _⟩
  | timedOut expired => exact .inr ⟨⟨_, _, rfl⟩, (hcalls _).symm ▸ List.nil_prefix⟩
  | unanswered => exact .inr ⟨trivial, (hcalls _).symm ▸ List.nil_prefix⟩

theorem Plays.modify (change : State → State) (state : State) :
    (modify change).Plays state () (change state) [] :=
  ⟨fun _ _ _ _ => .inl ⟨rfl, rfl, rfl⟩⟩

theorem Plays.state (before : State) : Script.state.Plays before before before [] :=
  ⟨fun _ _ _ _ => .inl ⟨rfl, rfl, rfl⟩⟩

theorem Plays.each {body : α → Script Unit} {calls : α → List Call} {state : State}
    (hbody : ∀ a, (body a).Plays state () state (calls a)) (steps : List α) :
    (each body steps).Plays state () state (steps.flatMap calls) := by
  induction steps with
  | nil => exact Plays.done () state
  | cons a rest ih => exact (hbody a).bind ih

theorem Plays.congr {s : Script α} {before after : State} {value : α} {calls more : List Call}
    (h : s.Plays before value after calls) (heq : calls = more) : s.Plays before value after more := by
  rw [← heq]
  exact h

theorem Plays.cond {condition : Prop} [Decidable condition] {s t : Script α} {before after : State}
    {value : α} {calls more : List Call} (hs : condition → s.Plays before value after calls)
    (ht : ¬ condition → t.Plays before value after more) :
    (if condition then s else t).Plays before value after (if condition then calls else more) := by
  split
  · exact hs ‹_›
  · exact ht ‹_›

theorem Plays.unless {condition : Prop} [Decidable condition] {s t : Script α} {before after : State}
    {value : α} {calls : List Call} (h : ¬ condition) (ht : t.Plays before value after calls) :
    (if condition then s else t).Plays before value after calls := by
  rwa [if_neg h]

theorem Plays.when {condition : Prop} [Decidable condition] {s : Script Unit} {state : State}
    {calls : List Call} (hs : condition → s.Plays state () state calls) :
    (if condition then s else pure ()).Plays state () state (if condition then calls else []) :=
  Plays.cond hs fun _ => Plays.done () state

end Script

end BootLogo
