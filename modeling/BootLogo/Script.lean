import BootLogo.Error
import BootLogo.Hardware
import BootLogo.Register.Field

/-!
# Scripts

What is done to the hardware is a `Script`: a tree of calls, waits and notes that can look at registers
and at the remembered state. It says what is done and not what comes of it; `Script.run` plays it on a
`Hardware`.

What is remembered is a `Compositor.State`: how far up the controller is, how registers are being committed,
whether the backlight is on, and the overlay's frame descriptor. A layer of the first generation fetches
through a `Descriptor` in memory: where the frame is, what to do with it, and which descriptor comes next.
One that names itself as the next shows the same frame for ever.
-/

namespace BootLogo

/-! ## What is remembered -/

/-- A descriptor as it stands in memory. -/
structure Descriptor where
  addr : UInt32
  ctrl : UInt32
  next : UInt32
  deriving DecidableEq

namespace Descriptor

/-- A descriptor that was never set. -/
def blank : Descriptor := ⟨0, 0, 0⟩

/-- The descriptor at address `here` for the frame at `frame`, linked to itself. -/
def loop (here frame : UInt32) : Descriptor := ⟨frame, Field.dfetch, here⟩

end Descriptor

namespace Compositor

structure State where
  /-- The last stage that the controller acknowledged. -/
  power : Power
  /-- How the layer that was last programmed is committed. -/
  mode : CommitMode
  /-- Whether the backlight was lit since the controller was last taken down. -/
  lit : Bool
  descriptor : Descriptor
  deriving DecidableEq

/-- Off and dark. -/
def State.initial (board : Board) : State := ⟨.off, board.logo.commit, false, .blank⟩

end Compositor

open Compositor (State)

/-! ## What is done -/

/-- Steps for the hardware, ending in a value or an error. -/
inductive Script (α : Type) where
  | done (value : α)
  | fail (error : Error)
  /-- Writes log lines. -/
  | note (entries : Log) (rest : Script α)
  | call (call : Call) (rest : Script α)
  /-- Waits for a condition; a wait that fails ends the script. -/
  | await (condition : Condition) (rest : Script α)
  /-- Reads a configuration register. -/
  | config (register : Register) (rest : UInt32 → Script α)
  /-- Drives the pin; a pin that refuses ends the script. -/
  | pin (high : Bool) (rest : Script α)
  /-- Lets time pass. -/
  | pause (ms : Nat) (rest : Script α)
  /-- Looks at the remembered state. -/
  | look (rest : State → Script α)
  /-- Replaces the remembered state. -/
  | store (state : State) (rest : Script α)

namespace Script

/-- One script and then another that depends on the first one's value. -/
def bind {α β : Type} : Script α → (α → Script β) → Script β
  | .done value, next => next value
  | .fail error, _ => .fail error
  | .note entries rest, next => .note entries (rest.bind next)
  | .call step rest, next => .call step (rest.bind next)
  | .await condition rest, next => .await condition (rest.bind next)
  | .config register rest, next => .config register fun value => (rest value).bind next
  | .pin high rest, next => .pin high (rest.bind next)
  | .pause ms rest, next => .pause ms (rest.bind next)
  | .look rest, next => .look fun state => (rest state).bind next
  | .store state rest, next => .store state (rest.bind next)

instance : Monad Script where
  pure := .done
  bind := bind

/-! ## Single steps -/

def say (entry : Log.Entry) : Script Unit := .note [entry] (.done ())

def sayAll (entries : Log) : Script Unit := .note entries (.done ())

def perform (step : Call) : Script Unit := .call step (.done ())

def wait (condition : Condition) : Script Unit := .await condition (.done ())

def readConfig (register : Register) : Script UInt32 := .config register .done

def drivePin (high : Bool) : Script Unit := .pin high (.done ())

def delay (ms : Nat) : Script Unit := .pause ms (.done ())

def state : Script State := .look .done

def modify (change : State → State) : Script Unit :=
  .look fun state => .store (change state) (.done ())

/-- The value, or the end of the script. -/
def ofExcept {α : Type} : Except Error α → Script α
  | .ok value => .done value
  | .error error => .fail error

/-- One script per element, in order. -/
def each {α : Type} (body : α → Script Unit) : List α → Script Unit
  | [] => .done ()
  | a :: rest => (body a).bind fun _ => each body rest

end Script

end BootLogo
