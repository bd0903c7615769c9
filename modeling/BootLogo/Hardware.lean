import BootLogo.Log
import BootLogo.Register
import BootLogo.Signals

/-!
# The hardware

What a display controller can be told is a `Call`; everything else about it is how it answers. `Hardware`
is any way to answer, so that what holds for every `Hardware` holds for every controller and every pin.
-/

namespace BootLogo

/-- Something that changes the controller. -/
inductive Call where
  | write (register : Register) (value : UInt32)
  | enable (signals : Signals)
  | disable (signals : Signals)
  /-- Loads the entries of a palette. -/
  | palette (layer : Layer) (words : List UInt32)
  /-- Loads the filter taps of an axis. -/
  | taps (axis : Axis) (table : List UInt32)
  deriving DecidableEq

/-- A controller and the pin of a backlight, with states in `σ`. -/
structure Hardware (σ : Type) where
  /-- The state after a call. -/
  apply : Call → σ → σ
  /-- What a configuration register reads as. -/
  config : Register → σ → UInt32
  /-- What the status register reads as, and the state after the reading. -/
  status : σ → Signals × σ
  /-- Whether the pin takes a level, and the state afterwards. -/
  drive : Bool → σ → Bool × σ
  /-- What is reported about a call. -/
  remarks : Call → Log

end BootLogo
