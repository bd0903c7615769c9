import BootLogo.Compositor.Access
import BootLogo.Proofs.Hardware.Written
import BootLogo.Proofs.Script.Calls

/-!
# The calls of an access

* `commitCalls`, `stagedCalls`: what a commit and a write of a layer's register tell the controller.
* `commit_plays`, `layerWrite_plays`: they do tell it that, and leave the state alone.
* `lastWritten?_stagedCalls`: a staged value reaches its own register and no other of the frame.
-/

namespace BootLogo.Compositor

open Script

variable (compositor : Compositor) {layer : Layer} {mode : CommitMode} {state : State}

def commitCalls (compositor : Compositor) (layer : Layer) : List Call :=
  .write (.layerEnable layer) compositor.map.commit ::
    (if compositor.map.attrUpdate.isSome then [.write .attrUpdate (compositor.map.layer layer).attr]
      else [])

/-- A register of a layer is written, and committed at once in the immediate mode. -/
def stagedCalls (compositor : Compositor) (mode : CommitMode) (layer : Layer) (register : Register)
    (value : UInt32) : List Call :=
  .write register value :: (if mode = .immediate then compositor.commitCalls layer else [])

def deferredCalls (compositor : Compositor) (mode : CommitMode) (layer : Layer) : List Call :=
  if mode = .deferred then compositor.commitCalls layer else []

/-! ## What is played -/

theorem synced_plays {step : Script Unit} {after : State} {calls : List Call}
    (h : step.Plays state () after calls) :
    (compositor.synced step).Plays state () after calls := by
  have hbefore : compositor.syncBefore.Plays state () state [] :=
    (Plays.when fun _ => Plays.wait inSync state).congr (by split <;> rfl)
  have hafter : compositor.syncAfter.Plays after () after [] :=
    (Plays.when fun _ => Plays.wait inSync after).congr (by split <;> rfl)
  exact (hbefore.bind (h.bind hafter)).congr (List.append_nil calls)

theorem request_plays (call : Call) : (compositor.request call).Plays state () state [call] :=
  compositor.synced_plays (Plays.perform call state)

theorem write_plays (register : Register) (value : UInt32) :
    (compositor.write register value).Plays state () state [.write register value] :=
  compositor.request_plays (.write register value)

theorem commit_plays : (compositor.commit layer).Plays state () state (compositor.commitCalls layer) := by
  have henable : (compositor.write (.layerEnable layer) compositor.map.commit).Plays state () state
      [.write (.layerEnable layer) compositor.map.commit] := compositor.write_plays _ _
  have hattr : (compositor.write .attrUpdate (compositor.map.layer layer).attr).Plays state () state
      [.write .attrUpdate (compositor.map.layer layer).attr] := compositor.write_plays _ _
  have hsay := Plays.say (.trace ("lcdc: commit " ++ layer.name)) state
  exact henable.bind (Plays.cond (fun _ => hattr.bind ((Plays.wait _ state).bind hsay)) fun _ => hsay)

theorem layerWrite_plays (register : Register) (value : UInt32) :
    (compositor.layerWrite layer register value).Plays state () state
      (compositor.stagedCalls state.mode layer register value) :=
  (compositor.write_plays register value).bind
    ((Plays.state state).bind (Plays.when fun _ => compositor.commit_plays))

theorem layerConfig_plays (index : Nat) (value : UInt32) :
    (compositor.layerConfig layer index value).Plays state () state
      (compositor.stagedCalls state.mode layer (.layerCfg layer index) value) :=
  compositor.layerWrite_plays (.layerCfg layer index) value

theorem commitDeferred_plays (layer : Layer) (mode : CommitMode) :
    (compositor.commitDeferred layer mode).Plays state () state
      (compositor.deferredCalls mode layer) :=
  Plays.when fun _ => compositor.commit_plays

/-! ## What is written -/

variable {compositor} {register target : Register}

theorem lastWritten?_commitCalls (hlayer : register ≠ .layerEnable layer)
    (hattr : register ≠ .attrUpdate) :
    lastWritten? register (compositor.commitCalls layer) = none := by
  rw [lastWritten?_eq_none_iff]
  intro call hcall
  rcases List.mem_cons.1 hcall with rfl | hcall
  · exact if_neg hlayer.symm
  · split at hcall
    · rw [List.mem_singleton.1 hcall]
      exact if_neg hattr.symm
    · cases hcall

theorem lastWritten?_stagedCalls (value : UInt32) (hlayer : register ≠ .layerEnable layer)
    (hattr : register ≠ .attrUpdate) :
    lastWritten? register (compositor.stagedCalls mode layer target value) =
      if target = register then some value else none := by
  rw [stagedCalls, lastWritten?_cons, lastWritten?_ite, lastWritten?_commitCalls hlayer hattr, ite_self]
  rfl

theorem lastWritten?_deferredCalls (hlayer : register ≠ .layerEnable layer)
    (hattr : register ≠ .attrUpdate) :
    lastWritten? register (compositor.deferredCalls mode layer) = none := by
  rw [deferredCalls, lastWritten?_ite, lastWritten?_commitCalls hlayer hattr, ite_self]

end BootLogo.Compositor
