import BootLogo.Hardware

/-!
# A controller that records its calls

It acknowledges every request at once, unless the signal is stuck, and shows itself busy for a number of
status reads after each write or request. From a given number of calls on, some status bits can be made
to read as set for ever.
-/

namespace BootLogo

structure Recorder where
  /-- The calls so far, the latest first. -/
  past : List Call
  status : Signals
  /-- Signals that are never acknowledged. -/
  stuck : Signals
  /-- How many status reads show busy after a write or a request. -/
  busyReads : Nat
  busyLeft : Nat
  /-- The status reads so far. -/
  reads : Nat
  /-- The number of calls from which on `jamBits` read as set. -/
  jamFrom : Option Nat
  jamBits : Signals
  /-- Whether the pin refuses. -/
  pinRefuses : Bool

namespace Recorder

/-- Nothing recorded. Scanning out is suspended, which reads as set. -/
def fresh : Recorder where
  past := []
  status := Signals.scan
  stuck := Signals.empty
  busyReads := 0
  busyLeft := 0
  reads := 0
  jamFrom := none
  jamBits := Signals.syncBusy
  pinRefuses := false

/-- The calls so far in order. -/
def calls (recorder : Recorder) : List Call := recorder.past.reverse

/-- The writes so far in order: registers and values. -/
def writes (recorder : Recorder) : List (Register × UInt32) :=
  recorder.calls.filterMap fun
    | .write register value => some (register, value)
    | _ => none

/-- The requests for signals so far in order. -/
def requests (recorder : Recorder) : List Call :=
  recorder.calls.filter fun
    | .enable _ | .disable _ => true
    | _ => false

/-- How many calls were made before the first one like this. -/
def position? (recorder : Recorder) (call : Call) : Option Nat :=
  recorder.calls.findIdx? (· = call)

/-- The value last written to a register. -/
def written? (recorder : Recorder) (register : Register) : Option UInt32 :=
  recorder.past.findSome? fun
    | .write target value => if target = register then some value else none
    | _ => none

/-- The status once a request is acknowledged. Scanning out is acknowledged by its bit clearing. -/
def acknowledge (recorder : Recorder) (signals : Signals) (on : Bool) : Signals :=
  let moved := signals.without recorder.stuck
  let inverted := moved.inter Signals.scan
  let plain := moved.without Signals.scan
  if on then (recorder.status.without inverted).union plain
  else (recorder.status.without plain).union inverted

def apply (call : Call) (recorder : Recorder) : Recorder :=
  let recorded := { recorder with past := call :: recorder.past }
  match call with
  | .write _ _ => { recorded with busyLeft := recorder.busyReads }
  | .enable signals =>
    { recorded with status := recorder.acknowledge signals true, busyLeft := recorder.busyReads }
  | .disable signals =>
    { recorded with status := recorder.acknowledge signals false, busyLeft := recorder.busyReads }
  | .palette _ _ => recorded
  | .taps _ _ => recorded

/-- The bits that are made to read as set. -/
def jam (recorder : Recorder) : Signals :=
  match recorder.jamFrom with
  | some start => if start ≤ recorder.past.length then recorder.jamBits else Signals.empty
  | none => Signals.empty

/-- A status read. -/
def readStatus (recorder : Recorder) : Signals × Recorder :=
  let busy :=
    if 0 < recorder.busyLeft then Signals.syncBusy.union Signals.attrBusy else Signals.empty
  ((recorder.status.union busy).union recorder.jam,
    { recorder with busyLeft := recorder.busyLeft - 1, reads := recorder.reads + 1 })

/-- The recorder as hardware: a configuration register reads as what was last written to it. -/
def hardware : Hardware Recorder where
  apply := apply
  config register recorder := (recorder.written? register).getD 0
  status := readStatus
  drive _ recorder := (!recorder.pinRefuses, recorder)
  remarks _ := []

end Recorder

end BootLogo
