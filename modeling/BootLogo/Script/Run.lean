import BootLogo.Script

/-!
# Running a script

`Script.run` plays a script on a `Hardware`. A `Run` is how it ended, what was left behind, and the
`Trace` of everything that happened; the log is read off the trace.
-/

namespace BootLogo

open Compositor (State)

/-- Something that happened while a script was played. -/
inductive Event where
  | call (call : Call)
  /-- A wait began. -/
  | await (condition : Condition)
  /-- The status was read. -/
  | status (signals : Signals)
  /-- A configuration register was read. -/
  | config (register : Register) (value : UInt32)
  /-- The pin took a level. -/
  | pin (high : Bool)
  /-- The pin refused a level. -/
  | pinRefused (high : Bool)
  | pause (ms : Nat)
  | note (entry : Log.Entry)
  deriving DecidableEq

/-- The log line of an event, if it has one. -/
def Event.entry? : Event → Option Log.Entry
  | .await condition => some condition.entry
  | .note entry => some entry
  | _ => none

/-- What happened, in order. -/
abbrev Trace := List Event

namespace Trace

/-- The log lines. -/
def log (trace : Trace) : Log := trace.filterMap Event.entry?

/-- What changed the controller. -/
def calls (trace : Trace) : List Call :=
  trace.filterMap fun
    | .call call => some call
    | _ => none

/-- The levels that the pin took. -/
def pins (trace : Trace) : List Bool :=
  trace.filterMap fun
    | .pin high => some high
    | _ => none

/-- The pauses that were asked for, in milliseconds. -/
def pauses (trace : Trace) : List Nat :=
  trace.filterMap fun
    | .pause ms => some ms
    | _ => none

end Trace

/-- How a script ends. -/
inductive Ending (α : Type) where
  | ok (value : α)
  | failed (error : Error)
  /-- A wait without a budget lost patience. -/
  | stalled
  deriving DecidableEq

/-- A script that was played. -/
structure Run (σ α : Type) where
  ending : Ending α
  state : State
  hardware : σ
  trace : Trace

/-- The same run with something that happened before. -/
def Run.after {σ α : Type} (run : Run σ α) (earlier : Trace) : Run σ α :=
  { run with trace := earlier ++ run.trace }

namespace Script

/-- Plays a script. Every wait has the same `budget`; a wait without one has `patience` status reads. -/
def run {σ α : Type} (hardware : Hardware σ) (budget : Budget) (patience : Nat) :
    Script α → State → σ → Run σ α
  | .done value, state, world => ⟨.ok value, state, world, []⟩
  | .fail error, state, world => ⟨.failed error, state, world, []⟩
  | .note entries rest, state, world =>
    (rest.run hardware budget patience state world).after (entries.map Event.note)
  | .call step rest, state, world =>
    (rest.run hardware budget patience state (hardware.apply step world)).after
      (.call step :: (hardware.remarks step).map Event.note)
  | .await condition rest, state, world =>
    let wait := Wait.poll hardware.status condition budget patience world
    let seen := .await condition :: wait.seen.map Event.status
    match wait.ending with
    | .met _ => (rest.run hardware budget patience state wait.source).after seen
    | .timedOut expired => ⟨.failed (.timeout state.power expired), state, wait.source, seen⟩
    | .unanswered => ⟨.stalled, state, wait.source, seen⟩
  | .config register rest, state, world =>
    let value := hardware.config register world
    ((rest value).run hardware budget patience state world).after [.config register value]
  | .pin high rest, state, world =>
    match hardware.drive high world with
    | (true, later) => (rest.run hardware budget patience state later).after [.pin high]
    | (false, later) => ⟨.failed (.config .pinRefused), state, later, [.pinRefused high]⟩
  | .pause ms rest, state, world =>
    (rest.run hardware budget patience state world).after [.pause ms]
  | .look rest, state, world => (rest state).run hardware budget patience state world
  | .store later rest, _, world => rest.run hardware budget patience later world

end Script

end BootLogo
