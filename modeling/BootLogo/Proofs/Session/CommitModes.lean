import BootLogo.Proofs.Compositor.BaseLayer
import BootLogo.Proofs.Session.History

/-!
# The commit modes agree

A layer is programmed in one of two modes: all its registers are staged and then committed at once, or each
is committed as soon as it is written.

* `Layering`: what is shown on a layer; `staging`: its calls up to the commit of the whole.
* `follow`: what the immediate mode makes of a call of the deferred mode (`staging_immediate`).
* `lastWritten?_follow`: the commits in between leave nothing behind that the last one does not.
* `commit_modes_agree`: apart from commits both modes make the same calls, and they leave the same in every
  register. In the deferred mode nothing is committed before all of it is staged.
-/

namespace BootLogo

open Compositor (State)

/-- A write that is part of a commit of the layer. -/
def Call.commits (layer : Layer) : Call → Bool
  | .write (.layerEnable other) _ => other = layer
  | .write .attrUpdate _ => true
  | _ => false

/-- What is shown on a layer. -/
inductive Layering where
  /-- The flat colour, on the base layer. -/
  | base
  /-- A picture, on the overlay. -/
  | overlay (frame : Frame) (placement : Placement)

/-! ## Commits between calls -/

namespace Compositor

variable {compositor : Compositor} {layer : Layer} {register : Register} {calls : List Call}

/-- A call, and the commit that follows a write in the immediate mode. -/
def follow (compositor : Compositor) (layer : Layer) : Call → List Call
  | .write register value => .write register value :: compositor.commitCalls layer
  | call => [call]

theorem commits_of_mem_commitCalls {call : Call} (h : call ∈ compositor.commitCalls layer) :
    call.commits layer = true := by
  rcases List.mem_cons.1 h with rfl | h
  · exact decide_eq_true rfl
  · split at h
    · rw [List.mem_singleton.1 h]
      rfl
    · cases h

theorem filter_commitCalls : (compositor.commitCalls layer).filter (!·.commits layer) = [] := by
  rw [List.filter_eq_nil_iff]
  intro call hcall
  simp [commits_of_mem_commitCalls hcall]

theorem filter_follow {call : Call} (h : call.commits layer = false) :
    (compositor.follow layer call).filter (!·.commits layer) = [call] := by
  cases call <;> simp [follow, h, filter_commitCalls]

theorem filter_flatMap_follow (h : ∀ call ∈ calls, call.commits layer = false) :
    (calls.flatMap (compositor.follow layer)).filter (!·.commits layer) = calls := by
  induction calls with
  | nil => rfl
  | cons call rest ih =>
    obtain ⟨hcall, hrest⟩ := List.forall_mem_cons.1 h
    rw [List.flatMap_cons, List.filter_append, filter_follow hcall, ih hrest]
    rfl

theorem lastWritten?_flatMap_follow
    (h : lastWritten? register (compositor.commitCalls layer) = none) :
    lastWritten? register (calls.flatMap (compositor.follow layer)) = lastWritten? register calls := by
  have hfollow (call : Call) :
      lastWritten? register (compositor.follow layer call) = call.written? register := by
    cases call with
    | write target value => rw [follow, lastWritten?_cons, h, Option.none_or]
    | enable signals => rfl
    | disable signals => rfl
    | palette layer words => rfl
    | taps axis table => rfl
  induction calls with
  | nil => rfl
  | cons call rest ih =>
    rw [List.flatMap_cons, lastWritten?_append, hfollow, ih, ← lastWritten?_cons]

theorem lastWritten?_follow (target : Register) (value : UInt32) :
    lastWritten? register ((calls ++ [Call.write target value]).flatMap (compositor.follow layer)) =
      lastWritten? register (calls ++ [.write target value] ++ compositor.commitCalls layer) := by
  -- the last commit writes over the earlier ones
  cases hcommit : lastWritten? register (compositor.commitCalls layer) with
  | none =>
    have hnone : lastWritten? register (calls ++ [.write target value] ++ compositor.commitCalls layer) =
        lastWritten? register (calls ++ [.write target value]) := by
      rw [lastWritten?_append, hcommit, Option.none_or]
    rw [lastWritten?_flatMap_follow hcommit, hnone]
  | some last =>
    have hlast : lastWritten? register (compositor.follow layer (Call.write target value)) = some last := by
      rw [follow, lastWritten?_cons, hcommit, Option.some_or]
    rw [List.flatMap_append, List.flatMap_singleton, lastWritten?_append, lastWritten?_append, hlast,
      hcommit, Option.some_or, Option.some_or]

/-! ## Both modes -/

theorem stagedCalls_immediate (value : UInt32) :
    compositor.stagedCalls .immediate layer register value =
      (compositor.stagedCalls .deferred layer register value).flatMap (compositor.follow layer) := by
  simp [stagedCalls, follow]

theorem configCalls_immediate (index : Nat) (value : UInt32) :
    compositor.configCalls .immediate index value =
      (compositor.configCalls .deferred index value).flatMap (compositor.follow .heo) :=
  stagedCalls_immediate value

theorem scalerStepCalls_immediate (step : Scaler.Step) :
    compositor.scalerStepCalls .immediate step =
      (compositor.scalerStepCalls .deferred step).flatMap (compositor.follow .heo) := by
  cases step with
  | config index value => exact configCalls_immediate index value
  | taps axis table => rfl

theorem flatMap_ite {α β : Type} {condition : Prop} [Decidable condition] {list : List α}
    {f : α → List β} :
    (if condition then list else []).flatMap f = if condition then list.flatMap f else [] := by
  split <;> rfl

end Compositor

namespace Layering

variable {compositor : Compositor} {mode : CommitMode} {state : State} (layering : Layering)

def layer : Layering → Layer
  | .base => .base
  | .overlay _ _ => .heo

def operation (mode : CommitMode) : Layering → Operation
  | .base => .showBase mode
  | .overlay frame placement => .showLayer frame placement mode

/-- Pictures have to fit, and need a controller that is fully up. -/
def Ready (compositor : Compositor) (state : State) : Layering → Prop
  | .base => True
  | .overlay _ placement => compositor.Ready placement state

/-- The calls up to the commit of the whole. -/
def staging (compositor : Compositor) (mode : CommitMode) : Layering → List Call
  | .base =>
    compositor.colorCalls mode 1 compositor.map.baseMode ++
      compositor.colorCalls mode 3 (Field.rgb compositor.board.logo.baseColor) ++
      (if compositor.map.generation = .xlcdc then compositor.colorCalls mode 4 0 else [])
  | .overlay frame placement =>
    compositor.describeCalls mode frame.image placement ++
      (if placement.scaling then compositor.scalerCalls mode placement else []) ++
      compositor.pointCalls mode frame.origin

def calls (compositor : Compositor) (mode : CommitMode) (layering : Layering) : List Call :=
  layering.staging compositor mode ++ compositor.deferredCalls mode layering.layer

theorem plays (mode : CommitMode) (hready : layering.Ready compositor state) :
    ∃ after, ((layering.operation mode).script compositor).Plays state none after
      (layering.calls compositor mode) := by
  have hdone (after : State) := Script.Plays.done (none : Option Placement) after
  cases layering with
  | base =>
    exact ⟨_, (Compositor.showBase_plays.andThen (hdone _)).congr (List.append_nil _)⟩
  | overlay frame placement =>
    exact ⟨_, ((compositor.showLayer_plays frame mode hready).andThen (hdone _)).congr
      (List.append_nil _)⟩

theorem calls_of_not_ready {σ : Type} (mode : CommitMode) (hready : ¬ layering.Ready compositor state)
    (hardware : Hardware σ) (patience : Nat) (world : σ) :
    ((layering.operation mode).perform hardware patience compositor state world).trace.calls = [] := by
  cases layering with
  | base => exact absurd trivial hready
  | overlay frame placement =>
    obtain ⟨error, hrun⟩ := compositor.showLayer_refused frame mode hready hardware
      compositor.board.poll patience world
    rw [Operation.calls_perform]
    simp only [operation, Operation.script, Script.run_bind, hrun, Run.andThen]
    rfl

theorem staging_immediate : layering.staging compositor .immediate =
    (layering.staging compositor .deferred).flatMap (compositor.follow layering.layer) := by
  cases layering with
  | base =>
    simp only [staging, layer, Compositor.colorCalls, List.flatMap_append, Compositor.flatMap_ite,
      Compositor.stagedCalls_immediate]
  | overlay frame placement =>
    have hscaler : compositor.scalerCalls .immediate placement =
        (compositor.scalerCalls .deferred placement).flatMap (compositor.follow .heo) := by
      rw [Compositor.scalerCalls, Compositor.scalerCalls, List.flatMap_assoc]
      exact congrArg (List.flatMap · _) (funext Compositor.scalerStepCalls_immediate)
    have hpalette (words : List UInt32) :
        [Call.palette .heo words].flatMap (compositor.follow .heo) = [.palette .heo words] := rfl
    simp only [staging, layer, Compositor.describeCalls, Compositor.pointCalls, List.flatMap_append,
      Compositor.flatMap_ite, Compositor.configCalls_immediate, Compositor.stagedCalls_immediate,
      hscaler, hpalette]

theorem staging_deferred_eq_append : ∃ front register value,
    layering.staging compositor .deferred = front ++ [.write register value] := by
  cases layering with
  | base =>
    by_cases hmap : compositor.map.generation = .xlcdc
    · simp only [staging, if_pos hmap]
      exact ⟨_, .layerCfg .base 4, 0, rfl⟩
    · simp only [staging, if_neg hmap, List.append_nil]
      exact ⟨_, .layerCfg .base 3, _, rfl⟩
  | overlay frame placement =>
    exact ⟨_, .layerCfg .heo 12, _, (List.append_assoc _ _ _).symm⟩

theorem commits_of_mem_staging {call : Call} (h : call ∈ layering.staging compositor .deferred) :
    call.commits layering.layer = false := by
  cases layering with
  | base =>
    simp only [staging, Compositor.colorCalls, Compositor.stagedCalls, reduceCtorEq, if_false,
      List.mem_append, List.mem_singleton, List.mem_ite_nil_right] at h
    rcases h with (rfl | rfl) | ⟨-, rfl⟩ <;> rfl
  | overlay frame placement =>
    have hscaler (h : call ∈ compositor.scalerCalls .deferred placement) :
        call.commits .heo = false := by
      obtain ⟨step, -, hcall⟩ := List.mem_flatMap.1 h
      cases step <;> rw [List.mem_singleton.1 hcall] <;> rfl
    simp only [staging, Compositor.describeCalls, Compositor.pointCalls, Compositor.configCalls,
      Compositor.stagedCalls, reduceCtorEq, if_false, List.mem_append, List.mem_singleton,
      List.mem_ite_nil_right, or_assoc] at h
    rcases h with rfl | rfl | rfl | rfl | rfl | ⟨-, rfl⟩ | rfl | ⟨-, rfl⟩ | ⟨-, h⟩ | rfl |
      ⟨-, rfl | rfl⟩ | rfl
    case inr.inr.inr.inr.inr.inr.inr.inr.inl => exact hscaler h
    all_goals rfl

theorem calls_deferred : layering.calls compositor .deferred =
    layering.staging compositor .deferred ++ compositor.commitCalls layering.layer := rfl

theorem calls_immediate : layering.calls compositor .immediate =
    (layering.staging compositor .deferred).flatMap (compositor.follow layering.layer) := by
  rw [← layering.staging_immediate]
  exact List.append_nil _

theorem filter_calls (mode : CommitMode) :
    (layering.calls compositor mode).filter (!·.commits layering.layer) =
      layering.staging compositor .deferred := by
  have hcommits : ∀ call ∈ layering.staging compositor .deferred, call.commits layering.layer = false :=
    fun call => layering.commits_of_mem_staging
  cases mode with
  | deferred =>
    rw [layering.calls_deferred, List.filter_append, Compositor.filter_commitCalls, List.append_nil,
      List.filter_eq_self]
    intro call hcall
    rw [hcommits call hcall, Bool.not_false]
  | immediate => rw [layering.calls_immediate, Compositor.filter_flatMap_follow hcommits]

theorem lastWritten?_calls (register : Register) :
    lastWritten? register (layering.calls compositor .deferred) =
      lastWritten? register (layering.calls compositor .immediate) := by
  obtain ⟨front, target, value, hfront⟩ := @staging_deferred_eq_append compositor layering
  rw [layering.calls_deferred, layering.calls_immediate, hfront, Compositor.lastWritten?_follow]

theorem calls_prefix {σ : Type} (mode : CommitMode) (hardware : Hardware σ) (patience : Nat) (world : σ) :
    ((layering.operation mode).perform hardware patience compositor state world).trace.calls <+:
      layering.calls compositor mode := by
  by_cases hready : layering.Ready compositor state
  · obtain ⟨after, hplays⟩ := layering.plays mode hready
    rw [Operation.calls_perform]
    rcases hplays.ends hardware compositor.board.poll patience world with ⟨-, -, hcalls⟩ | ⟨-, hprefix⟩
    · exact hcalls ▸ List.prefix_rfl
    · exact hprefix
  · rw [layering.calls_of_not_ready mode hready]
    exact List.nil_prefix

/-- In the deferred mode a commit comes after all that is staged, whatever the hardware answers. -/
theorem calls_deferred_prefix {σ : Type} (hardware : Hardware σ) (patience : Nat) (world : σ) :
    ((layering.operation .deferred).perform hardware patience compositor state world).trace.calls <+:
      layering.staging compositor .deferred ++ compositor.commitCalls layering.layer :=
  layering.calls_prefix .deferred hardware patience world

theorem perform_of_ready {σ : Type} (mode : CommitMode) (hready : layering.Ready compositor state)
    (hardware : Hardware σ) (patience : Nat) (world : σ) :
    let run := (layering.operation mode).perform hardware patience compositor state world
    ¬ run.ending.Unanswered →
      run.ending = .ok none ∧ run.trace.calls = layering.calls compositor mode := by
  intro run hanswered
  obtain ⟨after, hplays⟩ := layering.plays mode hready
  obtain ⟨hok, -, hcalls⟩ :=
    (hplays.ends hardware compositor.board.poll patience world).resolve_right fun h => hanswered h.1
  exact ⟨hok, (Operation.calls_perform ..).trans hcalls⟩

end Layering

/-- **Both commit modes show the same.** A deferred run stages everything and then commits it once; an
immediate run makes the same calls and commits after each write. -/
theorem commit_modes_agree {σ τ : Type} (compositor : Compositor) (layering : Layering)
    (hardware : Hardware σ) (otherHardware : Hardware τ) (patience otherPatience : Nat)
    (state other : State) (world : σ) (otherWorld : τ) :
    let deferred := (layering.operation .deferred).perform hardware patience compositor state world
    let immediate := (layering.operation .immediate).perform otherHardware otherPatience compositor other
      otherWorld
    let layer := layering.layer
    ∃ staged : List Call, (∀ call ∈ staged, call.commits layer = false) ∧
      deferred.trace.calls <+: staged ++ compositor.commitCalls layer ∧
      ((∀ value, .write (.layerEnable layer) value ∉ deferred.trace.calls) ∨
        staged ++ [.write (.layerEnable layer) compositor.map.commit] <+: deferred.trace.calls) ∧
      (layering.Ready compositor state → layering.Ready compositor other →
        ¬ deferred.ending.Unanswered → ¬ immediate.ending.Unanswered →
        deferred.ending = .ok none ∧ immediate.ending = .ok none ∧
        deferred.trace.calls = staged ++ compositor.commitCalls layer ∧
        immediate.trace.calls = staged.flatMap (compositor.follow layer) ∧
        deferred.trace.calls.filter (!·.commits layer) =
          immediate.trace.calls.filter (!·.commits layer) ∧
        ∀ register, lastWritten? register deferred.trace.calls =
          lastWritten? register immediate.trace.calls) := by
  intro deferred immediate layer
  have hcommits : ∀ call ∈ layering.staging compositor .deferred, call.commits layer = false :=
    fun call => layering.commits_of_mem_staging
  have hprefix : deferred.trace.calls <+:
      layering.staging compositor .deferred ++ compositor.commitCalls layer :=
    layering.calls_deferred_prefix hardware patience world
  refine ⟨layering.staging compositor .deferred, hcommits, hprefix, ?_, ?_⟩
  · -- the calls stop before the first write of the commit, or go on after it
    have henable : layering.staging compositor .deferred ++
          [.write (.layerEnable layer) compositor.map.commit] <+:
        layering.staging compositor .deferred ++ compositor.commitCalls layer :=
      (List.prefix_append_right_inj _).2 ⟨_, rfl⟩
    rcases List.prefix_or_prefix_of_prefix hprefix henable with hbefore | hafter
    · rcases List.prefix_concat_iff.1 hbefore with heq | hbefore
      · exact .inr (heq ▸ List.prefix_rfl)
      · refine .inl fun value hmem => ?_
        have hcommit := hcommits _ (hbefore.subset hmem)
        rw [Call.commits, decide_eq_false_iff_not] at hcommit
        exact hcommit rfl
    · exact .inr hafter
  · intro hready hother hanswered hotherAnswered
    obtain ⟨hok, hcalls⟩ := layering.perform_of_ready .deferred hready hardware patience world hanswered
    obtain ⟨hotherOk, hotherCalls⟩ := layering.perform_of_ready .immediate hother otherHardware
      otherPatience otherWorld hotherAnswered
    refine ⟨hok, hotherOk, hcalls, hotherCalls.trans layering.calls_immediate, ?_, fun register => ?_⟩
    · rw [hcalls, hotherCalls, layering.filter_calls, layering.filter_calls]
    · rw [hcalls, hotherCalls]
      exact layering.lastWritten?_calls register

theorem commit_modes_agree_square :
    let enlarged := Layering.overlay (Compositor.square 4)
      (.compute ⟨2, 2⟩ Compositor.xult.board.panel.size 8 Compositor.xult.scaler)
    let run (mode : CommitMode) := (enlarged.operation mode).perform Recorder.hardware 1 Compositor.xult
      Compositor.started.state Compositor.started.hardware
    (run .deferred).ending = .ok none ∧ (run .immediate).ending = .ok none ∧
      (run .deferred).trace.calls.filter (!·.commits .heo) =
        (run .immediate).trace.calls.filter (!·.commits .heo) ∧
      (run .deferred).trace.calls.length < (run .immediate).trace.calls.length ∧
      ∀ register, lastWritten? register (run .deferred).trace.calls =
        lastWritten? register (run .immediate).trace.calls := by
  intro enlarged run
  have hready : enlarged.Ready Compositor.xult Compositor.started.state := ⟨rfl, rfl⟩
  have hok (mode : CommitMode) : (run mode).ending = .ok none := by cases mode <;> rfl
  have hanswered (mode : CommitMode) : ¬ (run mode).ending.Unanswered := by
    rw [hok mode]
    exact id
  obtain ⟨staged, -, -, -, hagree⟩ := commit_modes_agree Compositor.xult enlarged Recorder.hardware
    Recorder.hardware 1 1 Compositor.started.state Compositor.started.state Compositor.started.hardware
    Compositor.started.hardware
  obtain ⟨-, -, -, -, hfilter, hregisters⟩ :=
    hagree hready hready (hanswered .deferred) (hanswered .immediate)
  exact ⟨hok _, hok _, hfilter, by decide +kernel, hregisters⟩

end BootLogo
