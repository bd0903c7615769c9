import BootLogo.Board

/-!
# Stages of a controller

A controller comes up in stages, strictly in order, and goes down in the reverse order. A request for a
stage is acknowledged by its signal in the status register.

* `stages`: the stages that a board's controller goes through.
* `runningPower`: where the controller stands once all of them are up.
* `powerBelow`: where it stands once a stage is down again.
-/

namespace BootLogo

/-- How far up a controller is: the last stage that was acknowledged. -/
inductive Power where
  | off
  | clock
  | sync
  | display
  | scan
  | serial
  | pwm
  deriving DecidableEq

namespace Power

def text : Power → String
  | .off => "off"
  | .clock => "clock"
  | .sync => "sync"
  | .display => "display"
  | .scan => "scan"
  | .serial => "serial"
  | .pwm => "pwm"

/-- The order in which a controller comes up. -/
def rank : Power → Nat
  | .off => 0
  | .clock => 1
  | .sync => 2
  | .display => 3
  | .scan => 4
  | .serial => 5
  | .pwm => 6

end Power

/-- A stage of coming up. -/
inductive Stage where
  | clock
  | sync
  | display
  | scan
  | serial
  | pwm
  deriving DecidableEq

namespace Stage

/-- All stages in the order in which they come up. -/
def order : List Stage := [.clock, .sync, .display, .scan, .serial, .pwm]

def name : Stage → String
  | .clock => "Clock"
  | .sync => "Sync"
  | .display => "Display"
  | .scan => "Scan"
  | .serial => "Serial"
  | .pwm => "Pwm"

/-- The signal that requests and acknowledges the stage. -/
def signal : Stage → Signals
  | .clock => Signals.clock
  | .sync => Signals.sync
  | .display => Signals.display
  | .scan => Signals.scan
  | .serial => Signals.serial
  | .pwm => Signals.pwm

/-- Where the controller stands once the stage is up. -/
def reached : Stage → Power
  | .clock => .clock
  | .sync => .sync
  | .display => .display
  | .scan => .scan
  | .serial => .serial
  | .pwm => .pwm

/-- The level of the signal that says the stage is up. -/
def enabledLevel : Stage → Level
  | .scan => .clear
  | _ => .set

/-- What the status shows once the stage is up. -/
def up (stage : Stage) : Condition := ⟨stage.signal, stage.enabledLevel⟩

/-- What the status shows once the stage is down. -/
def down (stage : Stage) : Condition := ⟨stage.signal, stage.enabledLevel.opposite⟩

/-- Whether a controller with these registers, attached and lit like this, has the stage. -/
def applies (map : Register.Map) (output : OutputInterface) (backlight : BacklightKind) :
    Stage → Bool
  | .scan => map.hasScanStage
  | .serial => output = .mipiDsi && map.hasSerialStage
  | .pwm => backlight = .pwm
  | _ => true

end Stage

/-- The stages that a controller goes through, in the order in which they come up. -/
def stages (map : Register.Map) (output : OutputInterface) (backlight : BacklightKind) : List Stage :=
  Stage.order.filter (Stage.applies map output backlight)

/-- Where a controller stands after the last of some stages. -/
def Power.after (stages : List Stage) : Power := (stages.getLast?.map Stage.reached).getD .off

/-- Where a controller stands once it is fully up. -/
def runningPower (map : Register.Map) (output : OutputInterface) (backlight : BacklightKind) : Power :=
  .after (stages map output backlight)

/-- Where a controller stands once `stage` is down again. -/
def powerBelow (map : Register.Map) (output : OutputInterface) (backlight : BacklightKind)
    (stage : Stage) : Power :=
  .after ((stages map output backlight).takeWhile (· ≠ stage))

end BootLogo
