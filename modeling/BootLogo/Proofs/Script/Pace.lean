import BootLogo.Compositor.Access
import BootLogo.Proofs.Script.Limits

/-!
# Calls in step with the controller

A controller takes a call only while it is in sync. A `SyncPolicy` says when a script looks for that: before
every call, or after.

* `Paced`: on every branch the script looks when the policy asks for it. A flag says whether the controller
  was found in sync since the last call.
* `Orderly`: within limits, and paced from one rest to the next. One rule for each way to put scripts
  together.
* `Trace.SyncedBefore`, `Trace.SyncedAfter`: what that makes of a run (`Paced.syncedBefore`,
  `Paced.endsSynced`). `Trace.Busy`: the last call was waited for in vain.
-/

namespace BootLogo

open Compositor (State inSync)
open Register (SyncPolicy)

variable {σ α β : Type}

/-- Whether the controller is known to be in sync between two steps. -/
def Register.SyncPolicy.atRest : SyncPolicy → Bool
  | .beforeWrite => false
  | .afterWrite => true

/-- No call is left to wait for. -/
def Register.SyncPolicy.Rests (policy : SyncPolicy) (synced : Bool) : Prop :=
  policy.atRest = true → synced = true

namespace Script

/-- On every branch, the script looks for the controller to be in sync when it has to. -/
def Paced (policy : SyncPolicy) : Script α → Bool → Prop
  | .done _, synced => policy.Rests synced
  | .fail _, synced => policy.Rests synced
  | .note _ rest, synced => rest.Paced policy synced
  | .call _ rest, synced => synced = true ∧ rest.Paced policy false
  | .await condition rest, synced =>
    if condition = inSync then rest.Paced policy true
    else policy.Rests synced ∧ rest.Paced policy synced
  | .config _ rest, synced => policy.Rests synced ∧ ∀ value, (rest value).Paced policy synced
  | .pin _ rest, synced => policy.Rests synced ∧ rest.Paced policy synced
  | .pause _ rest, synced => policy.Rests synced ∧ rest.Paced policy synced
  | .look rest, synced => ∀ state, (rest state).Paced policy synced
  | .store _ rest, synced => rest.Paced policy synced

namespace Paced

variable {policy : SyncPolicy} {s t : Script α} {synced : Bool}

theorem known (hs : s.Paced policy synced) : s.Paced policy true := by
  induction s generalizing synced with
  | done value => exact fun _ => rfl
  | fail error => exact fun _ => rfl
  | note entries rest ih => exact ih hs
  | call step rest ih => exact ⟨rfl, hs.2⟩
  | await condition rest ih =>
    rw [Paced] at hs ⊢
    split at hs
    · rwa [if_pos ‹_›]
    · rw [if_neg ‹_›]
      exact ⟨fun _ => rfl, ih hs.2⟩
  | config register rest ih => exact ⟨fun _ => rfl, fun value => ih value (hs.2 value)⟩
  | pin high rest ih => exact ⟨fun _ => rfl, ih hs.2⟩
  | pause ms rest ih => exact ⟨fun _ => rfl, ih hs.2⟩
  | look rest ih => exact fun state => ih state (hs state)
  | store later rest ih => exact ih hs

theorem of_rests (hs : s.Paced policy policy.atRest) (h : policy.Rests synced) :
    s.Paced policy synced := by
  cases synced with
  | true => exact hs.known
  | false =>
    cases hrest : policy.atRest with
    | true => exact absurd (h hrest) Bool.false_ne_true
    | false => rwa [hrest] at hs

theorem bind {next : α → Script β} (hs : s.Paced policy synced)
    (hnext : ∀ value, (next value).Paced policy policy.atRest) : (s.bind next).Paced policy synced := by
  induction s generalizing synced with
  | done value => exact (hnext value).of_rests hs
  | fail error => exact hs
  | note entries rest ih => exact ih hs
  | call step rest ih => exact ⟨hs.1, ih hs.2⟩
  | await condition rest ih =>
    rw [Script.bind, Paced]
    rw [Paced] at hs
    split at hs
    · rw [if_pos ‹_›]
      exact ih hs
    · rw [if_neg ‹_›]
      exact ⟨hs.1, ih hs.2⟩
  | config register rest ih => exact ⟨hs.1, fun value => ih value (hs.2 value)⟩
  | pin high rest ih => exact ⟨hs.1, ih hs.2⟩
  | pause ms rest ih => exact ⟨hs.1, ih hs.2⟩
  | look rest ih => exact fun state => ih state (hs state)
  | store later rest ih => exact ih hs

theorem done {value : α} : (Script.done value).Paced policy policy.atRest := id

theorem fail {error : Error} : (Script.fail error : Script α).Paced policy policy.atRest := id

theorem wait {condition : Condition} : (Script.wait condition).Paced policy policy.atRest := by
  rw [Script.wait, Paced]
  split
  · exact fun _ => rfl
  · exact ⟨id, id⟩

end Paced

/-! ## Orderly scripts -/

/-- From this state on the script is within the limits, and from one rest to the next it is paced. -/
structure Orderly (policy : SyncPolicy) (limits : Limits) (s : Script α) (state : State) : Prop where
  within : s.Within limits state
  paced : s.Paced policy policy.atRest

namespace Orderly

variable {policy : SyncPolicy} {limits wider : Limits} {s t : Script α} {state : State}

theorem mono (h : limits ≤ wider) (hs : s.Orderly policy limits state) : s.Orderly policy wider state :=
  ⟨hs.within.mono h, hs.paced⟩

theorem bind {next : α → Script β} (hs : s.Orderly policy limits state)
    (hnext : ∀ value later, (next value).Orderly policy limits later) :
    (s.bind next).Orderly policy limits state :=
  ⟨hs.within.bind fun value later => (hnext value later).within,
    hs.paced.bind fun value => (hnext value state).paced⟩

theorem done {value : α} : (Script.done value).Orderly policy limits state := ⟨trivial, .done⟩

theorem fail {error : Error} (h : limits.error error) :
    (Script.fail error : Script α).Orderly policy limits state := ⟨h, .fail⟩

theorem note {entries : Log} (hs : s.Orderly policy limits state) :
    (Script.note entries s).Orderly policy limits state := ⟨hs.within, hs.paced⟩

theorem say {entry : Log.Entry} : (Script.say entry).Orderly policy limits state :=
  .note .done

theorem wait {condition : Condition} (h : limits.event (.await condition)) :
    (Script.wait condition).Orderly policy limits state :=
  ⟨⟨h, trivial⟩, .wait⟩

theorem modify {change : State → State} (h : limits.change state (change state)) :
    (Script.modify change).Orderly policy limits state :=
  ⟨⟨h, trivial⟩, fun _ => @Paced.done _ policy ()⟩

theorem look : Script.state.Orderly policy limits state :=
  ⟨trivial, fun later => @Paced.done _ policy later⟩

theorem ofExcept {result : Except Error α} (h : ∀ error, result = .error error → limits.error error) :
    (Script.ofExcept result).Orderly policy limits state := by
  cases result with
  | ok value => exact .done
  | error error => exact .fail (h error rfl)

theorem cond {condition : Prop} [Decidable condition]
    (hs : condition → s.Orderly policy limits state)
    (ht : ¬ condition → t.Orderly policy limits state) :
    (if condition then s else t).Orderly policy limits state := by
  split
  · exact hs ‹_›
  · exact ht ‹_›

theorem when {condition : Prop} [Decidable condition] {s : Script Unit}
    (hs : condition → s.Orderly policy limits state) :
    (if condition then s else pure ()).Orderly policy limits state :=
  cond hs fun _ => done

theorem each {body : α → Script Unit} {steps : List α}
    (hbody : ∀ a ∈ steps, ∀ later, (body a).Orderly policy limits later) :
    (Script.each body steps).Orderly policy limits state := by
  induction steps generalizing state with
  | nil => exact done
  | cons a rest ih =>
    exact (hbody a List.mem_cons_self state).bind fun _ _ =>
      ih fun b hb => hbody b (List.mem_cons_of_mem a hb)

end Orderly

end Script

/-! ## Traces -/

theorem append_eq_append_cons {front more earlier later : List α} {a : α}
    (h : front ++ more = earlier ++ a :: later) :
    (∃ rest, front = earlier ++ a :: rest ∧ later = rest ++ more) ∨
      ∃ rest, earlier = front ++ rest ∧ more = rest ++ a :: later := by
  rcases List.append_eq_append_iff.1 h with ⟨rest, hearlier, hmore⟩ | ⟨rest, hfront, hrest⟩
  · exact .inr ⟨rest, hearlier, hmore⟩
  · cases rest with
    | nil =>
      rw [List.append_nil] at hfront
      exact .inr ⟨[], (List.append_nil front).symm ▸ hfront.symm, hrest.symm⟩
    | cons event rest =>
      obtain ⟨rfl, rfl⟩ := List.cons.inj hrest
      exact .inl ⟨rest, hfront, rfl⟩

/-- What happens while the controller is waited for. -/
def Event.Waits : Event → Prop
  | .await condition => condition = inSync
  | .status signals => inSync.holds signals = false
  | .note _ => True
  | _ => False

theorem Event.waits_note (entries : Log) : ∀ event ∈ entries.map Event.note, event.Waits := by
  intro event hevent
  obtain ⟨entry, -, rfl⟩ := List.mem_map.1 hevent
  trivial

namespace Trace

variable {trace more earlier : Trace} {call : Call}

/-- The controller was found in sync, and no call was made since. -/
def InSync (trace : Trace) : Prop :=
  ∃ before status after, trace = before ++ .status status :: after ∧ inSync.holds status = true ∧
    Trace.calls after = []

/-- Before every call the controller was found in sync. -/
def SyncedBefore (trace : Trace) : Prop :=
  ∀ earlier call later, trace = earlier ++ .call call :: later → InSync earlier

/-- After every call the controller was waited for until it was found in sync. -/
def SyncedAfter (trace : Trace) : Prop :=
  ∀ earlier call later, trace = earlier ++ .call call :: later →
    ∃ seen status rest, later = seen ++ .status status :: rest ∧ inSync.holds status = true ∧
      ∀ event ∈ seen, event.Waits

/-- After the last call the controller was not found in sync, and nothing was done but wait for it. -/
def Busy (trace : Trace) : Prop :=
  ∃ earlier call later, trace = earlier ++ .call call :: later ∧ SyncedAfter earlier ∧
    ∀ event ∈ later, event.Waits

theorem SyncedBefore.nil : Trace.SyncedBefore [] := fun _ _ _ h =>
  absurd h.symm (List.append_ne_nil_of_right_ne_nil _ (List.cons_ne_nil _ _))

theorem SyncedAfter.nil : Trace.SyncedAfter [] := fun _ _ _ h =>
  absurd h.symm (List.append_ne_nil_of_right_ne_nil _ (List.cons_ne_nil _ _))

theorem calls_ne_nil {front later : Trace} (h : more = front ++ .call call :: later) :
    Trace.calls more ≠ [] := by
  have hmem : call ∈ Trace.calls more := mem_calls.2 (h ▸ List.mem_append_right _ List.mem_cons_self)
  exact List.ne_nil_of_mem hmem

theorem InSync.append (h : trace.InSync) (hmore : Trace.calls more = []) :
    Trace.InSync (trace ++ more) := by
  obtain ⟨before, status, after, rfl, hholds, hafter⟩ := h
  exact ⟨before, status, after ++ more, by rw [List.append_assoc, List.cons_append], hholds,
    by rw [calls_append, hafter, hmore, List.append_nil]⟩

theorem SyncedBefore.append (h : trace.SyncedBefore) (hmore : Trace.calls more = []) :
    Trace.SyncedBefore (trace ++ more) := by
  intro earlier call later heq
  rcases append_eq_append_cons heq with ⟨rest, htrace, -⟩ | ⟨front, -, hcall⟩
  · exact h earlier call rest htrace
  · exact absurd hmore (calls_ne_nil hcall)

theorem SyncedBefore.made (h : trace.SyncedBefore) (hsync : trace.InSync) (call : Call) :
    Trace.SyncedBefore (trace ++ [.call call]) := by
  intro earlier other later heq
  rcases append_eq_append_cons heq with ⟨rest, htrace, -⟩ | ⟨front, hearlier, hcall⟩
  · exact h earlier other rest htrace
  · rw [List.singleton_eq_append_iff] at hcall
    rcases hcall with ⟨rfl, -⟩ | ⟨-, hnil⟩
    · rwa [hearlier, List.append_nil]
    · exact absurd hnil (List.cons_ne_nil _ _)

theorem SyncedAfter.append (h : trace.SyncedAfter) (hmore : Trace.calls more = []) :
    Trace.SyncedAfter (trace ++ more) := by
  intro earlier call later heq
  rcases append_eq_append_cons heq with ⟨rest, htrace, rfl⟩ | ⟨front, -, hcall⟩
  · obtain ⟨seen, status, last, rfl, hholds, hseen⟩ := h earlier call rest htrace
    exact ⟨seen, status, last ++ more, by rw [List.append_assoc, List.cons_append], hholds, hseen⟩
  · exact absurd hmore (calls_ne_nil hcall)

theorem SyncedAfter.made (h : trace.SyncedAfter) (call : Call) : Trace.Busy (trace ++ [.call call]) :=
  ⟨trace, call, [], rfl, h, fun _ hmem => absurd hmem List.not_mem_nil⟩

theorem Busy.append (h : trace.Busy) (hmore : ∀ event ∈ more, event.Waits) :
    Trace.Busy (trace ++ more) := by
  obtain ⟨earlier, call, later, rfl, hearlier, hlater⟩ := h
  refine ⟨earlier, call, later ++ more, by rw [List.append_assoc, List.cons_append], hearlier, ?_⟩
  exact List.forall_mem_append.2 ⟨hlater, hmore⟩

theorem Busy.found (h : trace.Busy) {status : Signals} (hholds : inSync.holds status = true) :
    Trace.SyncedAfter (trace ++ [.status status]) := by
  obtain ⟨before, call, seen, rfl, hbefore, hseen⟩ := h
  intro earlier other later heq
  rw [List.append_assoc] at heq
  rcases append_eq_append_cons heq with ⟨rest, htrace, rfl⟩ | ⟨front, -, hcall⟩
  · obtain ⟨waited, found, last, rfl, hfound, hwaited⟩ := hbefore earlier other rest htrace
    exact ⟨waited, found, _, by rw [List.append_assoc, List.cons_append], hfound, hwaited⟩
  · cases front with
    | nil =>
      obtain ⟨-, rfl⟩ := List.cons.inj hcall
      exact ⟨seen, status, [], rfl, hholds, hseen⟩
    | cons event front =>
      -- no call is made while the controller is waited for
      obtain ⟨-, hrest⟩ := List.cons.inj hcall
      have hmem : .call other ∈ seen ++ [Event.status status] := by
        rw [show seen ++ [Event.status status] = _ from hrest]
        exact List.mem_append_right front List.mem_cons_self
      rcases List.mem_append.1 hmem with hmem | hmem
      · exact (hseen _ hmem).elim
      · exact absurd (List.mem_singleton.1 hmem) Event.noConfusion

/-- How a trace stands, by whether the controller was found in sync since the last call. -/
def Stands (trace : Trace) : Bool → Prop
  | true => trace.SyncedAfter
  | false => trace.Busy

theorem Stands.append {synced : Bool} (h : trace.Stands synced) (hcalls : Trace.calls more = [])
    (hwaits : ∀ event ∈ more, event.Waits) : Trace.Stands (trace ++ more) synced := by
  cases synced with
  | true => exact SyncedAfter.append h hcalls
  | false => exact Busy.append h hwaits

theorem Stands.found {synced : Bool} (h : trace.Stands synced) {status : Signals}
    (hholds : inSync.holds status = true) : Trace.SyncedAfter (trace ++ [.status status]) := by
  cases synced with
  | true => exact SyncedAfter.append h rfl
  | false => exact Busy.found h hholds

end Trace

/-! ## Runs -/

namespace Moment

variable (moment : Moment σ) (hardware : Hardware σ)

theorem waited (condition : Condition) (count : Nat) :
    ∃ waited, ((moment.append [.await condition]).reads hardware count).trace = moment.trace ++ waited ∧
      Trace.calls waited = [] ∧
      (condition = inSync →
        (∀ status ∈ (Wait.readings hardware.status count moment.world).1, inSync.holds status = false) →
        ∀ event ∈ waited, event.Waits) := by
  refine ⟨.await condition :: (Wait.readings hardware.status count moment.world).1.map Event.status, ?_,
    Trace.calls_map_status _, fun hcondition hmissed => ?_⟩
  · simp only [reads, append, List.append_assoc, List.singleton_append]
  · refine List.forall_mem_cons.2 ⟨hcondition, fun event hevent => ?_⟩
    obtain ⟨status, hstatus, rfl⟩ := List.mem_map.1 hevent
    exact hmissed status hstatus

theorem trace_reads_succ (count : Nat) : (moment.reads hardware (count + 1)).trace =
    (moment.reads hardware count).trace ++
      [.status (hardware.status (moment.reads hardware count).world).1] := by
  simp only [reads, append, Wait.readings_succ, List.map_append, List.map_cons, List.map_nil,
    List.append_assoc]

end Moment

/-- After every call of a run the controller was waited for until it was found in sync, or the run ended
because the wait after the last one was not answered. -/
def EndsSynced (ending : Ending α) (moment : Moment σ) : Prop :=
  moment.trace.SyncedAfter ∨ moment.trace.Busy ∧ (ending = .stalled ∨
    ∃ reads, ending = .failed (.timeout moment.state.power ⟨inSync, reads⟩))

namespace Script.Paced

variable {s : Script α} {moment : Moment σ} {synced : Bool}

/-- **A script that is paced before its calls finds the controller in sync before each**, whatever the
hardware answers. -/
theorem syncedBefore (machine : Machine σ) (hs : s.Paced .beforeWrite synced)
    (hbefore : moment.trace.SyncedBefore) (hsync : synced = true → moment.trace.InSync) :
    (machine.play s moment).2.trace.SyncedBefore := by
  induction s generalizing moment synced with
  | done value => rwa [Machine.play_done]
  | fail error => rwa [Machine.play_fail]
  | note entries rest ih =>
    have hcalls := Trace.calls_map_note entries
    rw [Machine.play_note]
    exact ih hs (hbefore.append hcalls) fun h => (hsync h).append hcalls
  | call step rest ih =>
    have hcalls := Trace.calls_map_note (machine.hardware.remarks step)
    rw [Machine.play_call]
    exact ih hs.2 ((hbefore.made (hsync hs.1) step).append hcalls) nofun
  | await condition rest ih =>
    obtain ⟨count, -, hends⟩ := machine.play_await moment condition rest
    obtain ⟨waited, htrace, hcalls, -⟩ := moment.waited machine.hardware condition count
    have hlater := htrace ▸ hbefore.append hcalls
    rcases hends with ⟨hholds, hplay⟩ | ⟨-, hplay⟩ | hplay
    · rw [hplay]
      rw [Paced] at hs
      have hmet := (moment.append [.await condition]).trace_reads_succ machine.hardware count
      have hnext := hmet ▸ hlater.append (Trace.calls_map_status [_])
      split at hs
      · rename_i hcondition
        rw [hcondition] at hholds
        exact ih hs hnext fun _ => hmet ▸ ⟨_, _, [], rfl, hholds, rfl⟩
      · refine ih hs.2 hnext fun h => ?_
        rw [hmet, htrace]
        exact ((hsync h).append hcalls).append rfl
    · rw [hplay]
      exact hlater
    · rw [hplay]
      exact hlater
  | config register rest ih =>
    rw [Machine.play_config]
    exact ih _ (hs.2 _) (hbefore.append rfl) fun h => (hsync h).append rfl
  | pin high rest ih =>
    have hcalls : Trace.calls [if (machine.hardware.drive high moment.world).1 then Event.pin high
        else .pinRefused high] = [] := by
      split <;> rfl
    rw [Machine.play_pin]
    split
    · exact ih hs.2 (hbefore.append hcalls) fun h => (hsync h).append hcalls
    · exact hbefore.append hcalls
  | pause ms rest ih =>
    rw [Machine.play_pause]
    exact ih hs.2 (hbefore.append rfl) fun h => (hsync h).append rfl
  | look rest ih => exact ih moment.state (hs moment.state) hbefore hsync
  | store later rest ih => exact @ih { moment with state := later } _ hs hbefore hsync

/-- **A script that is paced after its calls waits after each until the controller is in sync**, or it ends
because that wait is not answered. -/
theorem endsSynced (machine : Machine σ) (hs : s.Paced .afterWrite synced)
    (h : moment.trace.Stands synced) :
    EndsSynced (machine.play s moment).1 (machine.play s moment).2 := by
  induction s generalizing moment synced with
  | done value =>
    obtain rfl : synced = true := hs rfl
    rw [Machine.play_done]
    exact .inl h
  | fail error =>
    obtain rfl : synced = true := hs rfl
    rw [Machine.play_fail]
    exact .inl h
  | note entries rest ih =>
    rw [Machine.play_note]
    exact ih hs (h.append (Trace.calls_map_note entries) (Event.waits_note entries))
  | call step rest ih =>
    obtain ⟨rfl, hrest⟩ := hs
    rw [Machine.play_call]
    exact ih hrest ((Trace.SyncedAfter.made h step).append (Event.waits_note _))
  | await condition rest ih =>
    obtain ⟨count, hmissed, hends⟩ := machine.play_await moment condition rest
    obtain ⟨waited, htrace, hcalls, hwaits⟩ := moment.waited machine.hardware condition count
    have hmet := (moment.append [.await condition]).trace_reads_succ machine.hardware count
    rw [Paced] at hs
    split at hs
    · rename_i hcondition
      subst hcondition
      have hlater := h.append hcalls (hwaits rfl hmissed)
      rw [← htrace] at hlater
      have hgivenUp {ending : Ending α} (hending : ending = .stalled ∨
            ∃ reads, ending = .failed (.timeout moment.state.power ⟨inSync, reads⟩)) :
          EndsSynced ending ((moment.append [.await inSync]).reads machine.hardware count) := by
        cases synced with
        | true => exact .inl hlater
        | false => exact .inr ⟨hlater, hending⟩
      rcases hends with ⟨hholds, hplay⟩ | ⟨-, hplay⟩ | hplay <;> rw [hplay]
      · exact ih hs (hmet ▸ hlater.found hholds)
      · exact hgivenUp (.inr ⟨count, rfl⟩)
      · exact hgivenUp (.inl rfl)
    · obtain rfl : synced = true := hs.1 rfl
      have hlater := Trace.SyncedAfter.append h hcalls
      rw [← htrace] at hlater
      rcases hends with ⟨-, hplay⟩ | ⟨-, hplay⟩ | hplay <;> rw [hplay]
      · exact ih hs.2 (hmet ▸ hlater.append rfl)
      · exact .inl hlater
      · exact .inl hlater
  | config register rest ih =>
    obtain rfl : synced = true := hs.1 rfl
    rw [Machine.play_config]
    exact ih _ (hs.2 _) (Trace.SyncedAfter.append h rfl)
  | pin high rest ih =>
    obtain rfl : synced = true := hs.1 rfl
    have hdriven : (moment.drive machine.hardware high).trace.SyncedAfter :=
      Trace.SyncedAfter.append h (by split <;> rfl)
    rw [Machine.play_pin]
    split
    · exact ih hs.2 hdriven
    · exact .inl hdriven
  | pause ms rest ih =>
    obtain rfl : synced = true := hs.1 rfl
    rw [Machine.play_pause]
    exact ih hs.2 (Trace.SyncedAfter.append h rfl)
  | look rest ih => exact ih moment.state (hs moment.state) h
  | store later rest ih => exact @ih { moment with state := later } _ hs h

end Script.Paced

end BootLogo
