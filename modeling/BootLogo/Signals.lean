import BootLogo.Log

/-!
# Signals of a display controller

The bits of the enable, disable and status registers. `Signals.text` names the known ones in order and
gives the others as one number.
-/

namespace BootLogo

/-- A set of signals, one per bit. -/
structure Signals where
  bits : UInt32
  deriving DecidableEq

namespace Signals

/-- The pixel clock runs. -/
def clock : Signals := ⟨0x1⟩

/-- The timing engine runs. -/
def sync : Signals := ⟨0x2⟩

/-- The panel is switched on. -/
def display : Signals := ⟨0x4⟩

/-- The backlight's pulse width modulation runs. -/
def pwm : Signals := ⟨0x8⟩

/-- A register write has not reached the pixel clock domain yet; status only. -/
def syncBusy : Signals := ⟨0x10⟩

/-- Scanning out is suspended: the status bit clears once it runs. -/
def scan : Signals := ⟨0x20⟩

/-- The serial interface takes commands. -/
def serial : Signals := ⟨0x40⟩

/-- An attribute update is pending; status only. -/
def attrBusy : Signals := ⟨0x80000000⟩

def empty : Signals := ⟨0⟩

/-- The signals that have a name. -/
def named : List (String × Signals) :=
  [("CLOCK", clock), ("SYNC", sync), ("DISPLAY", display), ("PWM", pwm), ("SYNC_BUSY", syncBusy),
    ("SCAN", scan), ("SERIAL", serial), ("ATTR_BUSY", attrBusy)]

def union (a b : Signals) : Signals := ⟨a.bits ||| b.bits⟩

def without (a b : Signals) : Signals := ⟨a.bits &&& ~~~b.bits⟩

def inter (a b : Signals) : Signals := ⟨a.bits &&& b.bits⟩

/-- Every signal of `b` is in `a`. -/
def contains (a b : Signals) : Bool := a.bits &&& b.bits = b.bits

/-- Some signal is in both. -/
def intersects (a b : Signals) : Bool := a.bits &&& b.bits ≠ 0

/-- All signals that have a name. -/
def all : Signals := named.foldl (fun set (_, signal) => set.union signal) empty

/-- The signals of a set that have a name. -/
def known (signals : Signals) : Signals := signals.inter all

/-- The known signals of a set one by one, in the order of their names. -/
def members (signals : Signals) : List Signals :=
  (named.map Prod.snd).filter signals.contains

/-- The names of the known signals, then the unknown bits. -/
def text (signals : Signals) : String :=
  let names := (named.filter fun (_, signal) => signals.contains signal).map Prod.fst
  let unknown := signals.without all
  let others :=
    if unknown.bits ≠ 0 ∨ names = [] then [Hex.marked unknown.bits.toNat] else []
  let list := " | ".intercalate (names ++ others)
  s!"Signals({list})"

end Signals

end BootLogo
