import BootLogo.Proofs.Script.Play

/-!
# What waits leave behind

* `Trace.Met`: the readings after a wait began answer it. `Trace.Answered`, `Trace.GivenUp`: all that a
  wait leaves in the trace.
* `Script.Leaves`: what a script leaves there once it is done, and what if one of its waits was given up. One
  rule for each way to put such scripts together.
-/

namespace BootLogo

namespace Trace

variable {trace : Trace} {condition other : Condition} {expired : Timeout} {call : Call}

/-- A wait for the condition that began before this was met: some readings, the last as it should be. -/
def Met (condition : Condition) (trace : Trace) : Prop :=
  ∃ (seen : List Signals) (status : Signals) (rest : Trace),
    trace = seen.map Event.status ++ .status status :: rest ∧ condition.holds status = true

theorem Met.append (h : trace.Met condition) (more : Trace) : Met condition (trace ++ more) := by
  obtain ⟨seen, status, rest, rfl, hholds⟩ := h
  exact ⟨seen, status, rest ++ more, by rw [List.append_assoc, List.cons_append], hholds⟩

/-- A wait was answered: of what was read, the last and nothing else meets the condition. -/
def Answered (condition : Condition) (trace : Trace) : Prop :=
  ∃ (missed : List Signals) (found : Signals),
    trace = .await condition :: (missed ++ [found]).map Event.status ∧
      (∀ status ∈ missed, condition.holds status = false) ∧ condition.holds found = true

/-- A wait was given up: nothing that was read meets the condition. -/
def GivenUp (expired : Timeout) (trace : Trace) : Prop :=
  ∃ missed : List Signals, trace = .await expired.condition :: missed.map Event.status ∧
    missed.length = expired.spins ∧ ∀ status ∈ missed, expired.condition.holds status = false

/-- A call was made, and what is reported about it. -/
def Called (call : Call) (trace : Trace) : Prop :=
  ∃ remarks : Log, trace = .call call :: remarks.map Event.note

/-- One part of a trace and then another. -/
def Then (first second : Trace → Prop) (trace : Trace) : Prop :=
  ∃ front back, trace = front ++ back ∧ first front ∧ second back

theorem await_mem_waited {seen : List Signals}
    (h : Event.await other ∈ Event.await condition :: seen.map Event.status) : other = condition := by
  rcases List.mem_cons.1 h with heq | hmem
  · exact Event.await.inj heq
  · obtain ⟨status, -, hstatus⟩ := List.mem_map.1 hmem
    cases hstatus

theorem Answered.await_mem (h : trace.Answered condition) (hmem : .await other ∈ trace) :
    other = condition := by
  obtain ⟨missed, found, rfl, -⟩ := h
  exact await_mem_waited hmem

theorem GivenUp.await_mem (h : trace.GivenUp expired) (hmem : .await other ∈ trace) :
    other = expired.condition := by
  obtain ⟨missed, rfl, -⟩ := h
  exact await_mem_waited hmem

theorem Called.await_not_mem (h : trace.Called call) : .await other ∉ trace := by
  obtain ⟨remarks, rfl⟩ := h
  simp

theorem Answered.calls_eq (h : trace.Answered condition) : trace.calls = [] := by
  obtain ⟨missed, found, rfl, -⟩ := h
  exact calls_map_status (missed ++ [found])

theorem GivenUp.calls_eq (h : trace.GivenUp expired) : trace.calls = [] := by
  obtain ⟨missed, rfl, -⟩ := h
  exact calls_map_status missed

theorem Called.calls_eq (h : trace.Called call) : trace.calls = [call] := by
  obtain ⟨remarks, rfl⟩ := h
  exact congrArg (call :: ·) (calls_map_note remarks)

end Trace

/-- A script ended so because this wait was given up. -/
def Ending.Expires {α : Type} (power : Power) (expired : Timeout) : Ending α → Prop
  | .ok _ => False
  | .failed error => 0 < expired.spins ∧ error = .timeout power expired
  | .stalled => True

namespace Script

/-- Whatever the hardware answers, the script is done and has left a `well` trace, or a wait was given up and
it has left an `ill` one. The state is as it was. -/
structure Leaves (s : Script Unit) (well : Trace → Prop) (ill : Timeout → Trace → Prop) : Prop where
  ends : ∀ {σ : Type} (machine : Machine σ) (moment : Moment σ), ∃ part,
    let played := machine.play s moment
    played.2.state = moment.state ∧ played.2.trace = moment.trace ++ part ∧
      (played.1 = .ok () ∧ well part ∨
        ∃ expired, ill expired part ∧ played.1.Expires moment.state.power expired)

namespace Leaves

variable {s t : Script Unit} {well more : Trace → Prop} {ill worse : Timeout → Trace → Prop}

theorem done : (Script.done ()).Leaves (· = []) fun _ _ => False :=
  ⟨fun machine moment => ⟨[], by simp⟩⟩

theorem perform (call : Call) : (Script.perform call).Leaves (Trace.Called call) fun _ _ => False := by
  constructor
  intro σ machine moment
  refine ⟨_, ?_, ?_, .inl ⟨?_, machine.hardware.remarks call, rfl⟩⟩ <;>
    rw [Script.perform, Machine.play_call, Machine.play_done]
  · rfl
  · simp only [Moment.call, Moment.append, List.append_assoc, List.singleton_append]

theorem wait (condition : Condition) : (Script.wait condition).Leaves (Trace.Answered condition)
    fun expired trace => expired.condition = condition ∧ trace.GivenUp expired := by
  constructor
  intro σ machine moment
  rw [Script.wait]
  obtain ⟨count, hmissed, hends⟩ := machine.play_await moment condition (.done ())
  have hlength : (Wait.readings machine.hardware.status count moment.world).1.length = count :=
    Wait.length_readings count
  rcases hends with ⟨hholds, hplay⟩ | ⟨hpos, hplay⟩ | hplay <;> rw [hplay]
  · rw [Machine.play_done]
    refine ⟨_, rfl, List.append_assoc _ _ _, .inl ⟨rfl, _, _, ?_, hmissed, hholds⟩⟩
    exact congrArg (Event.await condition :: List.map Event.status ·)
      (congrArg Prod.fst (Wait.readings_succ count))
  · exact ⟨_, rfl, List.append_assoc _ _ _, .inr ⟨⟨condition, count⟩,
      ⟨rfl, _, rfl, hlength, hmissed⟩, hpos, rfl⟩⟩
  · exact ⟨_, rfl, List.append_assoc _ _ _, .inr ⟨⟨condition, count⟩,
      ⟨rfl, _, rfl, hlength, hmissed⟩, trivial⟩⟩

theorem bind (hs : s.Leaves well ill) (ht : t.Leaves more worse) :
    (s.bind fun _ => t).Leaves (Trace.Then well more) fun expired trace =>
      ill expired trace ∨ Trace.Then well (worse expired) trace := by
  constructor
  intro σ machine moment
  obtain ⟨front, hstate, htrace, hends⟩ := hs.ends machine moment
  rw [Machine.play_bind]
  generalize machine.play s moment = played at hstate htrace hends
  obtain ⟨ending, later⟩ := played
  rcases hends with ⟨rfl, hwell⟩ | ⟨expired, hill, hexpires⟩
  · obtain ⟨back, hlast, hmore, hends⟩ := ht.ends machine later
    refine ⟨front ++ back, hlast.trans hstate, ?_, ?_⟩
    · rw [← List.append_assoc, ← htrace]
      exact hmore
    · rcases hends with ⟨hok, hdone⟩ | ⟨expired, hworse, hexpires⟩
      · exact .inl ⟨hok, front, back, rfl, hwell, hdone⟩
      · rw [hstate] at hexpires
        exact .inr ⟨expired, .inr ⟨front, back, rfl, hwell, hworse⟩, hexpires⟩
  · cases ending with
    | ok value => exact hexpires.elim
    | failed error => exact ⟨front, hstate, htrace, .inr ⟨expired, .inl hill, hexpires⟩⟩
    | stalled => exact ⟨front, hstate, htrace, .inr ⟨expired, .inl hill, trivial⟩⟩

theorem weaken (hs : s.Leaves well ill) (hwell : ∀ trace, well trace → more trace)
    (hill : ∀ expired trace, ill expired trace → worse expired trace) : s.Leaves more worse := by
  constructor
  intro σ machine moment
  obtain ⟨part, hstate, htrace, hends⟩ := hs.ends machine moment
  refine ⟨part, hstate, htrace, hends.imp (fun ⟨hok, h⟩ => ⟨hok, hwell part h⟩) ?_⟩
  exact fun ⟨expired, h, hexpires⟩ => ⟨expired, hill expired part h, hexpires⟩

end Leaves

end Script

end BootLogo
