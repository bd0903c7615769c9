import BootLogo.Hardware
import BootLogo.Register.Map

/-!
# A controller that is a block of memory

Every call writes words at the offsets of a register map and every read takes a word from there; nothing
is acknowledged. What the map lacks is not written; a missing register and a missing palette are reported.
-/

namespace BootLogo

structure RegisterFile where
  words : Array UInt32
  /-- Whether the pin refuses. -/
  pinRefuses : Bool

namespace RegisterFile

/-- The size of the block in bytes. -/
def size : Nat := 0x4000

/-- The block with all words zero. -/
def zeroed : RegisterFile := ⟨Array.replicate (size / 4) 0, false⟩

/-- The word at an offset. -/
def load (file : RegisterFile) (offset : Nat) : UInt32 := file.words.getD (offset / 4) 0

/-- The block after a write of one word. -/
def store (file : RegisterFile) (offset : Nat) (value : UInt32) : RegisterFile :=
  { file with words := file.words.setIfInBounds (offset / 4) value }

/-- The block after a write of several words from `offset` on. -/
def storeAll (file : RegisterFile) (offset : Nat) : List UInt32 → RegisterFile
  | [] => file
  | value :: rest => (file.store offset value).storeAll (offset + 4) rest

/-- The words that are not the same in a later state of the block, with their offsets. -/
def changes (earlier later : RegisterFile) : List (Nat × UInt32) :=
  (List.range (size / 4)).filterMap fun index =>
    let value := later.load (4 * index)
    if earlier.load (4 * index) = value then none else some (4 * index, value)

/-- The block after a write to a register, if the map has it. -/
def write (map : Register.Map) (register : Register) (value : UInt32) (file : RegisterFile) :
    RegisterFile :=
  match map.offset? register with
  | some offset => file.store offset value
  | none => file

/-- What a register reads as, zero if the map lacks it. -/
def read (map : Register.Map) (register : Register) (file : RegisterFile) : UInt32 :=
  match map.offset? register with
  | some offset => file.load offset
  | none => 0

/-- The index of the overlay's register that takes the first tap of an axis. -/
def firstTap (indices : Nat × Nat) : Axis → Nat
  | .horizontal => indices.1
  | .vertical => indices.2

def apply (map : Register.Map) (call : Call) (file : RegisterFile) : RegisterFile :=
  match call with
  | .write register value => file.write map register value
  | .enable signals => file.store Register.Map.enableOffset signals.bits
  | .disable signals => file.store Register.Map.disableOffset signals.bits
  | .palette layer words =>
    match (map.layer layer).clut with
    | some start => file.storeAll start words
    | none => file
  | .taps axis table =>
    match map.coefficients with
    | some indices => file.storeAll (map.heo.cfg + 4 * firstTap indices axis) table
    | none => file

/-- The bit of the attribute status that says an update is pending. -/
def updatePending : UInt32 := 0x80000000

/-- The status: the known signals of the status word, and a pending attribute update from the word that
holds it, if there is one. -/
def readStatus (map : Register.Map) (file : RegisterFile) : Signals :=
  let status :=
    (Signals.known ⟨file.load Register.Map.statusOffset⟩).without Signals.attrBusy
  match map.attrStatus with
  | some offset =>
    if file.load offset &&& updatePending ≠ 0 then status.union Signals.attrBusy else status
  | none => status

/-- What is reported about a call: that the map lacks what it is for. -/
def remarks (map : Register.Map) (call : Call) : Log :=
  let name := map.name
  match call with
  | .write register _ =>
    let lacking := register.text
    if (map.offset? register).isNone then [.warn s!"lcdc: {name} has no {lacking}"] else []
  | .palette layer _ =>
    let lacking := layer.name
    if (map.layer layer).clut.isNone then [.warn s!"lcdc: {name} has no {lacking} CLUT"] else []
  | _ => []

/-- The block as hardware behind a register map. -/
def hardware (map : Register.Map) : Hardware RegisterFile where
  apply := apply map
  config register file := file.read map register
  status file := (file.readStatus map, file)
  drive _ file := (!file.pinRefuses, file)
  remarks := remarks map

end RegisterFile

end BootLogo
