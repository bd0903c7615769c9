import BootLogo.Bytes
import BootLogo.Log
import BootLogo.Signals

/-!
# Waiting for a controller

Every wait is for a `Condition`: signals that must all be set, or all be clear. The status is read until
the condition holds or a `Budget` of reads is used up; at least one read is made.

* `poll` is that loop, over any way to read a status.
* `Budget.unbounded` never gives up. So that every wait has an end, `poll` takes a patience: the number of
  reads after which it stops looking and says so.
-/

namespace BootLogo

/-- What a status bit should be. -/
inductive Level where
  | set
  | clear
  deriving DecidableEq

namespace Level

def opposite : Level → Level
  | .set => .clear
  | .clear => .set

def name : Level → String
  | .set => "set"
  | .clear => "clear"

end Level

/-- Signals to wait for, and the level they must all reach. -/
structure Condition where
  signals : Signals
  level : Level
  deriving DecidableEq

namespace Condition

def holds (condition : Condition) (status : Signals) : Bool :=
  match condition.level with
  | .set => status.contains condition.signals
  | .clear => !status.intersects condition.signals

def text (condition : Condition) : String := condition.signals.text ++ " " ++ condition.level.name

/-- The log line at the start of a wait. -/
def entry (condition : Condition) : Log.Entry := .trace ("lcdc: wait " ++ condition.text)

end Condition

/-- How many status reads a wait may make. -/
inductive Budget where
  | unbounded
  | spins (limit : Nat)
  deriving DecidableEq

/-- A wait that used up its budget. -/
structure Timeout where
  condition : Condition
  spins : Nat
  deriving DecidableEq

def Timeout.message (timeout : Timeout) : String :=
  let wanted := timeout.condition.text
  let spins := timeout.spins
  s!"no {wanted} after {spins} reads"

namespace Budget

/-- How many reads a wait makes at most, given the patience with an unbounded one. -/
def reads (patience : Nat) : Budget → Nat
  | .unbounded => patience
  | .spins limit => max limit 1

end Budget

/-- How a wait ends. -/
inductive Wait.Ending where
  /-- The condition held at the read of this number; the count stops at the greatest 32-bit number. -/
  | met (reads : Nat)
  | timedOut (timeout : Timeout)
  /-- An unbounded wait used up the patience. -/
  | unanswered
  deriving DecidableEq

/-- A wait that is over: how it ended, what was read, and what was read from afterwards. -/
structure Wait (σ : Type) where
  ending : Wait.Ending
  seen : List Signals
  source : σ

namespace Wait

/-- The greatest count of reads that is reported. -/
def countLimit : Nat := wordLimit - 1

/-- Reads up to `left` more times; `seen` holds what was read before. -/
def loop {σ : Type} (read : σ → Signals × σ) (condition : Condition) (seen : Array Signals) :
    Nat → σ → Bool × Array Signals × σ
  | 0, source => (false, seen, source)
  | left + 1, source =>
    let (status, later) := read source
    let seen := seen.push status
    if condition.holds status then (true, seen, later) else loop read condition seen left later

/-- Reads the status until `condition` holds or the budget is used up. -/
def poll {σ : Type} (read : σ → Signals × σ) (condition : Condition) (budget : Budget)
    (patience : Nat) (source : σ) : Wait σ :=
  let (held, seen, later) := loop read condition #[] (budget.reads patience) source
  let ending :=
    if held then .met (min seen.size countLimit)
    else
      match budget with
      | .unbounded => .unanswered
      | .spins _ => .timedOut ⟨condition, seen.size⟩
  ⟨ending, seen.toList, later⟩

end Wait

end BootLogo
