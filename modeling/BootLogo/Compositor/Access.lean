import BootLogo.Compositor
import BootLogo.Script

/-!
# Access to the registers

A controller takes a call only when it is in sync: the first generation is waited for before every call,
the second after it.

* `synced` makes one step in sync with the controller.
* `commit` applies what is staged for a layer.
* `layerWrite` stages a layer register, and applies it at once if the layer is programmed that way.
-/

namespace BootLogo.Compositor

/-- The controller takes calls. -/
def inSync : Condition := ⟨Signals.syncBusy, .clear⟩

/-- No attribute update is pending. -/
def attributesTaken : Condition := ⟨Signals.attrBusy, .clear⟩

def syncBefore (compositor : Compositor) : Script Unit :=
  if compositor.map.sync = .beforeWrite then .wait inSync else pure ()

def syncAfter (compositor : Compositor) : Script Unit :=
  if compositor.map.sync = .afterWrite then .wait inSync else pure ()

/-- A step that is made in sync with the controller. -/
def synced (compositor : Compositor) (step : Script Unit) : Script Unit := do
  compositor.syncBefore
  step
  compositor.syncAfter

/-- A call that is made in sync with the controller. -/
def request (compositor : Compositor) (call : Call) : Script Unit :=
  compositor.synced (.perform call)

def write (compositor : Compositor) (register : Register) (value : UInt32) : Script Unit :=
  compositor.request (.write register value)

/-- Applies what is staged for a layer. -/
def commit (compositor : Compositor) (layer : Layer) : Script Unit := do
  compositor.write (.layerEnable layer) compositor.map.commit
  if compositor.map.attrUpdate.isSome then
    compositor.write .attrUpdate (compositor.map.layer layer).attr
    .wait attributesTaken
  .say (.trace ("lcdc: commit " ++ layer.name))

/-- Writes a register of a layer. -/
def layerWrite (compositor : Compositor) (layer : Layer) (register : Register) (value : UInt32) :
    Script Unit := do
  compositor.write register value
  let state ← Script.state
  if state.mode = .immediate then compositor.commit layer

/-- Writes a configuration register of a layer. -/
def layerConfig (compositor : Compositor) (layer : Layer) (index : Nat) (value : UInt32) :
    Script Unit :=
  compositor.layerWrite layer (.layerCfg layer index) value

/-- How the layer that is programmed next is committed. -/
def setMode (mode : CommitMode) : Script Unit :=
  .modify fun state => { state with mode := mode }

/-- Applies a layer that was staged as a whole. -/
def commitDeferred (compositor : Compositor) (layer : Layer) (mode : CommitMode) : Script Unit :=
  if mode = .deferred then compositor.commit layer else pure ()

end BootLogo.Compositor
