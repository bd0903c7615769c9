import BootLogo.Compositor.Sequence
import BootLogo.Runs.Decode
import BootLogo.Script.Run

/-!
# The logo

A logo is stored as a blob: a bitmap, or a run-length coded stream of one.

* `unpack` finds the bitmap: a stream is decoded into scratch memory, anything else is taken as it is and
  cut to the size that it states.
* `load` makes a picture of it where it lies.
* `present` does everything from the blob to the lit panel. Whatever can be wrong with a logo is found
  before the first call to the controller.
-/

namespace BootLogo.Logo

/-- Where the bitmap lies. -/
inductive Place where
  | blob
  | scratch
  deriving DecidableEq

/-- The blob and the scratch memory. -/
structure Buffers where
  blob : Bytes
  scratch : Bytes
  deriving DecidableEq

namespace Buffers

def get (buffers : Buffers) : Place → Bytes
  | .blob => buffers.blob
  | .scratch => buffers.scratch

/-- The buffers after the front of one of them has been written. -/
def write (buffers : Buffers) (place : Place) (front : Bytes) : Buffers :=
  match place with
  | .blob => { buffers with blob := buffers.blob.overwrite front }
  | .scratch => { buffers with scratch := buffers.scratch.overwrite front }

end Buffers

/-- Where the bitmap of a blob goes: a stream is unpacked into the scratch memory. -/
def place (blob : Bytes) : Place := if Runs.isStream blob then .scratch else .blob

/-- A blob that was unpacked: the bitmap at the front of its place or the error, the buffers afterwards,
and what was reported. -/
structure Unpacked where
  result : Except Runs.Error Bytes
  buffers : Buffers
  log : Log

/-- Finds the bitmap of a blob. -/
def unpack (buffers : Buffers) : Unpacked :=
  let blob := buffers.blob
  match place blob with
  | .scratch =>
    let decoding := Runs.decode blob buffers.scratch
    let closing : Log :=
      match decoding.result with
      | .ok length => [.debug s!"splash: rle {blob.length} -> {length} bytes"]
      | .error _ => []
    { result := decoding.bytes
      buffers := { buffers with scratch := decoding.buffer }
      log := decoding.log ++ closing }
  | .blob =>
    { result := .ok (blob.take ((Bitmap.statedSize? blob).getD blob.length))
      buffers := buffers
      log := [] }

/-! ## Loading -/

/-- A logo that was loaded: the picture in its frame or the error, the buffers afterwards, and what was
reported. -/
structure Loaded where
  result : Except Error Frame
  buffers : Buffers
  log : Log

/-- Where the two buffers are on the bus. -/
structure Addresses where
  blob : UInt32
  scratch : UInt32
  deriving DecidableEq

def Addresses.get (addresses : Addresses) : Place → UInt32
  | .blob => addresses.blob
  | .scratch => addresses.scratch

/-- Makes a picture of a bitmap at the front of `place`. -/
def interpret (addresses : Addresses) (place : Place) (buffers : Buffers) (bitmap : Bytes) : Loaded :=
  let interpretation := Bitmap.interpret bitmap
  { result :=
      match interpretation.result with
      | .error error => .error (.bitmap error)
      | .ok (info, image) => .ok ⟨image, addresses.get place + .ofNat info.start⟩
    buffers := buffers.write place interpretation.bytes
    log := interpretation.log }

/-- Makes a picture of a blob. -/
def load (addresses : Addresses) (buffers : Buffers) : Loaded :=
  let unpacked := unpack buffers
  match unpacked.result with
  | .error error => ⟨.error (.runs error), unpacked.buffers, unpacked.log⟩
  | .ok bitmap =>
    let loaded := interpret addresses (place buffers.blob) unpacked.buffers bitmap
    { loaded with log := unpacked.log ++ loaded.log }

/-! ## Showing -/

/-- A logo that is about to be shown: the buffers as they will stay, and what to do. -/
structure Showing where
  buffers : Buffers
  script : Script Placement

/-- The picture of a bitmap if it can be shown: its place on the panel is checked before its bytes are
changed. -/
def prepare (compositor : Compositor) (addresses : Addresses) (buffers : Buffers) : Loaded :=
  let unpacked := unpack buffers
  match unpacked.result with
  | .error error => ⟨.error (.runs error), unpacked.buffers, unpacked.log⟩
  | .ok bitmap =>
    match Bitmap.inspect bitmap with
    | .error error => ⟨.error (.bitmap error), unpacked.buffers, unpacked.log ++ error.log⟩
    | .ok info =>
      match (compositor.place ⟨info.layout.width, info.layout.height⟩).validate with
      | .error error => ⟨.error (.geometry error), unpacked.buffers, unpacked.log⟩
      | .ok _ =>
        let loaded := interpret addresses (place buffers.blob) unpacked.buffers bitmap
        { loaded with log := unpacked.log ++ loaded.log }

/-- Shows the logo in a blob, starting the controller if it is not up. -/
def present (compositor : Compositor) (addresses : Addresses) (buffers : Buffers) : Showing :=
  let prepared := prepare compositor addresses buffers
  { buffers := prepared.buffers
    script := do
      Script.sayAll prepared.log
      let frame ← Script.ofExcept prepared.result
      let state ← Script.state
      if !compositor.isRunning state.power then compositor.init
      compositor.display frame }

/-- The log line once a logo has been shown, or why it was not. -/
def closing : Ending (Option Placement) → Log
  | .ok (some placement) =>
    let scaled := placement.scaled
    [.info s!"splash: shown {scaled.width}x{scaled.height} at ({placement.x}, {placement.y})"]
  | .failed error => [.warn ("splash: " ++ error.message)]
  | _ => []

end BootLogo.Logo
