import BootLogo.Proofs.Hardware.Replay
import BootLogo.Proofs.Script.Calls

/-!
# A recorder that answers in time

A `Prompt` recorder acknowledges every request and is busy for fewer readings than a wait makes.

* `Prompt.answers`: a wait for something that the status shows is met, however busy the recorder is.
* `Script.Settles`: a script ends well, whatever a recorder has been through, and says how it leaves it. One
  rule for each way to put scripts together.
* `Settles.of_quiet`: a quiet script settles if it has no reason of its own to fail.
-/

namespace BootLogo

open Compositor (State inSync attributesTaken)

variable {α β : Type}

/-! ## Readings -/

theorem Signals.union_empty (signals : Signals) : signals.union Signals.empty = signals := by
  show (⟨signals.bits ||| 0⟩ : Signals) = signals
  rw [UInt32.or_zero]

namespace Recorder

variable {recorder : Recorder} {limit : Nat} {condition : Condition} {budget : Budget} {patience : Nat}

/-- Nothing is stuck, the pin takes every level, and busy is shown for fewer than `limit` readings. -/
structure Prompt (limit : Nat) (recorder : Recorder) : Prop where
  stuck : recorder.stuck = Signals.empty
  jam : recorder.jamFrom = none
  inSync : inSync.holds recorder.status = true
  attributes : attributesTaken.holds recorder.status = true
  busyReads : recorder.busyReads < limit
  busyLeft : recorder.busyLeft < limit
  pin : recorder.pinRefuses = false

theorem status_mem_readings {count : Nat} (hjam : recorder.jamFrom = none)
    (hbusy : recorder.busyLeft < count) :
    recorder.status ∈ (Wait.readings Recorder.hardware.status count recorder).1 := by
  -- each reading takes one off the busy count, so the count of readings outlasts it
  induction count generalizing recorder with
  | zero => exact absurd hbusy (Nat.not_lt_zero _)
  | succ count ih =>
    by_cases hleft : recorder.busyLeft = 0
    · have hread : recorder.readStatus.1 = recorder.status := by
        simp only [readStatus, jam, hjam, hleft, Nat.lt_irrefl, if_false, Signals.union_empty]
      exact List.mem_cons.2 (.inl hread.symm)
    · have hless : recorder.readStatus.2.busyLeft < count := by
        show recorder.busyLeft - 1 < count
        omega
      exact List.mem_cons_of_mem _ (@ih recorder.readStatus.2 hjam hless)

theorem Prompt.answers (h : recorder.Prompt (budget.reads patience))
    (hholds : condition.holds recorder.status = true) :
    ∃ status ∈ (Wait.readings Recorder.hardware.status (budget.reads patience) recorder).1,
      condition.holds status = true :=
  ⟨recorder.status, status_mem_readings h.jam h.busyLeft, hholds⟩

theorem Prompt.read (h : recorder.Prompt limit) : recorder.readStatus.2.Prompt limit :=
  { h with busyLeft := Nat.lt_of_le_of_lt (Nat.sub_le _ _) h.busyLeft }

theorem Prompt.quiet {call : Call} (h : recorder.Prompt limit) (hcall : call.Quiet) :
    (recorder.apply call).Prompt limit := by
  cases call with
  | write register value => exact { h with busyLeft := h.busyReads }
  | enable signals => exact hcall.elim
  | disable signals => exact hcall.elim
  | palette layer words => exact { h with }
  | taps axis table => exact { h with }

theorem Prompt.ask (h : recorder.Prompt limit) (stage : Stage) (on : Bool) :
    (recorder.apply (stage.ask on)).Prompt limit := by
  have htest {index : Nat} (hindex : index < 32) (hstage : stage.signal.test index = false) :
      (recorder.apply (stage.ask on)).status.test index = recorder.status.test index := by
    rw [status_ask]
    cases on <;>
      simp [acknowledge, Signals.test_without hindex, hstage]
  have hbusy (signals : Signals) (index : Nat) (hindex : index < 32)
      (hbits : signals.bits.toBitVec = .twoPow 32 index) (hstage : stage.signal.test index = false)
      (hholds : (Condition.mk signals .clear).holds recorder.status = true) :
      (Condition.mk signals .clear).holds (recorder.apply (stage.ask on)).status = true := by
    simp only [Condition.holds, Signals.intersects_eq_test hbits hindex] at hholds ⊢
    rwa [htest hindex hstage]
  -- a request is acknowledged in the bit of its stage, which is not a busy bit
  refine ⟨stuck_apply.trans h.stuck, ?_, ?_, ?_, ?_, ?_, ?_⟩
  · cases on <;> exact h.jam
  · exact hbusy Signals.syncBusy 4 (by decide) (by decide) (by cases stage <;> decide) h.inSync
  · exact hbusy Signals.attrBusy 31 (by decide) (by decide) (by cases stage <;> decide) h.attributes
  · cases on <;> exact h.busyReads
  · cases on <;> exact h.busyReads
  · cases on <;> exact h.pin

end Recorder

/-! ## Scripts that end well -/

namespace Script

variable {budget : Budget} {patience : Nat}

/-- Played on a recorder in `before`, the script ends well and leaves it in `after`. -/
def Settles (budget : Budget) (patience : Nat) (before : Recorder → Prop) (s : Script α)
    (after : Recorder → Prop) : Prop :=
  ∀ moment : Moment Recorder, before moment.world →
    ∃ value, ((Recorder.machine budget patience).play s moment).1 = .ok value ∧
      after ((Recorder.machine budget patience).play s moment).2.world

/-- The script ends well on every recorder that answers in time, and leaves one. -/
abbrev Succeeds (budget : Budget) (patience : Nat) (s : Script α) : Prop :=
  s.Settles budget patience (Recorder.Prompt (budget.reads patience))
    (Recorder.Prompt (budget.reads patience))

/-- Readings change nothing of this, and there are enough of them. -/
structure Steady (limit : Nat) (inv : Recorder → Prop) : Prop where
  prompt : ∀ {recorder}, inv recorder → recorder.Prompt limit
  read : ∀ {recorder}, inv recorder → inv recorder.readStatus.2

theorem Steady.prompt_self (limit : Nat) : Steady limit fun recorder => recorder.Prompt limit :=
  ⟨id, Recorder.Prompt.read⟩

theorem Steady.reads {limit : Nat} {inv : Recorder → Prop} (h : Steady limit inv)
    {moment : Moment Recorder} (hinv : inv moment.world) (count : Nat) :
    inv (moment.reads Recorder.hardware count).world := by
  have hread (recorder : Recorder) (hgood : inv recorder) :
      True ∧ inv (Recorder.hardware.status recorder).2 := ⟨trivial, h.read hgood⟩
  exact (@Wait.readings_of_invariant _ _ moment.world inv (fun _ => True) hread count hinv).2

namespace Settles

variable {before mid after inv : Recorder → Prop} {s : Script α}

theorem done {value : α} : (Script.done value).Settles budget patience inv inv := by
  intro moment h
  rw [Machine.play_done]
  exact ⟨value, rfl, h⟩

theorem bind {next : α → Script β} (hs : s.Settles budget patience before mid)
    (hnext : ∀ value, (next value).Settles budget patience mid after) :
    (s.bind next).Settles budget patience before after := by
  intro moment h
  obtain ⟨value, hok, hmid⟩ := hs moment h
  rw [Machine.play_bind]
  generalize (Recorder.machine budget patience).play s moment = played at hok hmid
  obtain ⟨ending, later⟩ := played
  cases hok
  exact hnext value later hmid

theorem each {body : β → Script Unit} {steps : List β}
    (hbody : ∀ a ∈ steps, (body a).Settles budget patience inv inv) :
    (each body steps).Settles budget patience inv inv := by
  induction steps with
  | nil => exact done
  | cons a rest ih =>
    exact (hbody a List.mem_cons_self).bind fun _ => ih fun b hb => hbody b (List.mem_cons_of_mem a hb)

theorem say {entry : Log.Entry} : (Script.say entry).Settles budget patience inv inv := by
  intro moment h
  rw [Script.say, Machine.play_note, Machine.play_done]
  exact ⟨(), rfl, h⟩

theorem modify {change : State → State} : (Script.modify change).Settles budget patience inv inv := by
  intro moment h
  rw [Script.modify, Machine.play_look, Machine.play_store, Machine.play_done]
  exact ⟨(), rfl, h⟩

theorem perform {call : Call} (h : ∀ recorder, before recorder → after (recorder.apply call)) :
    (Script.perform call).Settles budget patience before after := by
  intro moment hbefore
  rw [Script.perform, Machine.play_call, Machine.play_done]
  exact ⟨(), rfl, h _ hbefore⟩

theorem wait {condition : Condition} (hinv : Steady (budget.reads patience) inv)
    (hholds : ∀ recorder, inv recorder → condition.holds recorder.status = true) :
    (Script.wait condition).Settles budget patience inv inv := by
  intro moment h
  let machine := Recorder.machine budget patience
  obtain ⟨reads, hmet⟩ := Wait.poll_answered ((hinv.prompt h).answers (hholds _ h))
  obtain ⟨count, -, -, hplay⟩ := machine.play_await_met moment (.done ()) hmet
  have hread : inv ((moment.append [.await condition]).reads Recorder.hardware (count + 1)).world :=
    hinv.reads h (count + 1)
  rw [Script.wait]
  rw [Machine.play_done] at hplay
  exact ⟨(), by rw [hplay], by rw [hplay]; exact hread⟩

variable {compositor : Compositor}

theorem request {call : Call} (hbefore : Steady (budget.reads patience) before)
    (hafter : Steady (budget.reads patience) after)
    (hcall : ∀ recorder, before recorder → after (recorder.apply call)) :
    (compositor.request call).Settles budget patience before after := by
  have hsync {inv : Recorder → Prop} (hinv : Steady (budget.reads patience) inv) (condition : Prop)
      [Decidable condition] :
      (if condition then Script.wait inSync else pure ()).Settles budget patience inv inv := by
    split
    · exact .wait hinv fun _ h => (hinv.prompt h).inSync
    · exact done
  exact (hsync hbefore _).bind fun _ => (perform hcall).bind fun _ => hsync hafter _

theorem ask (stage : Stage) (on : Bool) {condition : Condition}
    (hcondition : ∀ status, stage.up.holds status = on → condition.holds status = true) :
    ((compositor.request (stage.ask on)).bind fun _ => Script.wait condition).Succeeds budget patience := by
  let asked (recorder : Recorder) : Prop :=
    recorder.Prompt (budget.reads patience) ∧ stage.up.holds recorder.status = on
  have hasked : Steady (budget.reads patience) asked := ⟨And.left, fun h => ⟨h.1.read, h.2⟩⟩
  have hcall (recorder : Recorder) (h : recorder.Prompt (budget.reads patience)) :
      asked (recorder.apply (stage.ask on)) :=
    ⟨h.ask stage on, Recorder.up_ask.trans (if_pos ⟨rfl, by rw [h.stuck, Signals.test_empty]⟩)⟩
  have hwait : (Script.wait condition).Settles budget patience asked asked :=
    .wait hasked fun recorder h => hcondition recorder.status h.2
  refine (request (.prompt_self _) hasked hcall).bind fun _ moment h => ?_
  obtain ⟨value, hok, hlater⟩ := hwait moment h
  exact ⟨value, hok, hlater.1⟩

end Settles

/-! ## Quiet scripts -/

variable {compositor : Compositor} {limits : Limits} {refusals : Error → Prop} {s : Script α}

/-- A quiet script that is played on a prompt recorder ends well or with an error of its own. -/
theorem Within.ends_of_prompt {moment : Moment Recorder} (hs : s.Within limits moment.state)
    (hquiet : limits ≤ compositor.quiet refusals)
    (h : moment.world.Prompt (budget.reads patience)) :
    let played := (Recorder.machine budget patience).play s moment
    played.2.world.Prompt (budget.reads patience) ∧
      ((∃ value, played.1 = .ok value) ∨ ∃ error, played.1 = .failed error ∧ limits.error error) := by
  have hsteady := Steady.prompt_self (budget.reads patience)
  induction s generalizing moment with
  | done value =>
    rw [Machine.play_done]
    exact ⟨h, .inl ⟨value, rfl⟩⟩
  | fail error =>
    rw [Machine.play_fail]
    exact ⟨h, .inr ⟨error, rfl, hs⟩⟩
  | note entries rest ih =>
    rw [Machine.play_note]
    exact ih hs h
  | call step rest ih =>
    rw [Machine.play_call]
    exact ih hs.2 (h.quiet (hquiet.1 _ hs.1).2)
  | await condition rest ih =>
    have hholds : condition.holds moment.world.status = true := by
      rcases hquiet.1 _ hs.1 with rfl | rfl
      · exact h.inSync
      · exact h.attributes
    obtain ⟨reads, hmet⟩ := Wait.poll_answered (h.answers hholds)
    obtain ⟨count, -, -, hplay⟩ := (Recorder.machine budget patience).play_await_met moment rest hmet
    have hread : ((moment.append [.await condition]).reads Recorder.hardware
        (count + 1)).world.Prompt (budget.reads patience) := hsteady.reads h (count + 1)
    rw [hplay]
    exact ih hs.2 hread
  | config register rest ih =>
    rw [Machine.play_config]
    exact ih _ (hs _).2 h
  | pin high rest ih =>
    have htaken : (Recorder.hardware.drive high moment.world).1 = true := by
      show (!moment.world.pinRefuses) = true
      rw [h.pin]
      rfl
    rw [Machine.play_pin, if_pos htaken]
    exact ih hs.2 h
  | pause ms rest ih =>
    rw [Machine.play_pause]
    exact ih hs.2 h
  | look rest ih => exact ih moment.state hs h
  | store later rest ih =>
    rw [Machine.play_store]
    exact ih hs.2 h

/-- **A quiet script settles** if it has no reason of its own to fail. -/
theorem Settles.of_quiet (hs : ∀ state, s.Within limits state)
    (hquiet : limits ≤ compositor.quiet refusals)
    (hends : ∀ (moment : Moment Recorder) (error : Error),
      ((Recorder.machine budget patience).play s moment).1 = .failed error → ¬ limits.error error) :
    s.Succeeds budget patience := by
  intro moment h
  obtain ⟨hlater, ⟨value, hok⟩ | ⟨error, hfailed, herror⟩⟩ :=
    (hs moment.state).ends_of_prompt hquiet h
  · exact ⟨value, hok, hlater⟩
  · exact absurd herror (hends moment error hfailed)

theorem Settles.of_plays (hs : ∀ state, s.Within limits state)
    (hquiet : limits ≤ compositor.quiet fun _ => False)
    (hplays : ∀ state, ∃ value after calls, s.Plays state value after calls) :
    s.Succeeds budget patience := by
  refine .of_quiet hs hquiet fun moment error hfailed herror => ?_
  obtain ⟨value, after, calls, hplays⟩ := hplays moment.state
  have hending : (s.run Recorder.hardware budget patience moment.state moment.world).ending =
      .failed error := hfailed
  rcases hplays.ends Recorder.hardware budget patience moment.world with ⟨hok, -⟩ | ⟨hwait, -⟩
  · rw [hending] at hok
    cases hok
  · rw [hending] at hwait
    obtain ⟨power, expired, rfl⟩ := hwait
    obtain ⟨mistake, hmistake⟩ | hfalse := hquiet.2.2 _ herror
    · cases hmistake
    · exact hfalse

end Script

end BootLogo
