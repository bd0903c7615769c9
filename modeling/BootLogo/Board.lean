import BootLogo.Panel
import BootLogo.Register.Map
import BootLogo.Wait

/-!
# Boards

What is fixed when a board is designed: the panel and how it is attached, the controller and its clock,
the backlight, and how the logo is to look. Two boards are described: `sam9x75Eb` and `sama5d2Xult`.
-/

namespace BootLogo

/-- How the panel is attached. -/
inductive OutputInterface where
  /-- Parallel colour lines; the pixel clock comes from the controller's divider. -/
  | parallel
  /-- A serializer that supplies the pixel clock itself. -/
  | lvds
  /-- A serial interface that takes commands. -/
  | mipiDsi
  deriving DecidableEq

/-- What drives the backlight. -/
inductive BacklightKind where
  /-- The controller's pulse width modulation. -/
  | pwm
  /-- A pin that is on or off. -/
  | gpio
  deriving DecidableEq

/-- When the registers of a layer take effect. -/
inductive CommitMode where
  /-- All together, by one commit at the end. -/
  | deferred
  /-- One by one, by a commit after each write. -/
  | immediate
  deriving DecidableEq

/-- How the logo is shown. -/
structure LogoConfig where
  /-- Eighths added to the size; zero shows the logo as it is. -/
  scale : UInt8
  brightness : UInt8
  /-- How long the panel stays dark before the backlight first comes on. -/
  backlightDelayMs : Nat
  /-- Red, green and blue of the flat colour behind the logo. -/
  baseColor : UInt32
  commit : CommitMode
  deriving DecidableEq

/-- Unscaled, fully lit at once, on black. -/
def LogoConfig.plain : LogoConfig where
  scale := 0
  brightness := 0xFF
  backlightDelayMs := 0
  baseColor := 0
  commit := .deferred

/-- A board. -/
structure Board where
  name : String
  panel : Panel
  /-- The clock that the controller divides down to the pixel clock. -/
  clockHz : Nat
  regs : Register.Map
  output : OutputInterface
  backlight : BacklightKind
  logo : LogoConfig
  poll : Budget
  deriving DecidableEq

namespace Board

/-- The evaluation board of the second generation, its backlight on a pin. -/
def sam9x75Eb : Board where
  name := "sam9x75-eb"
  panel := Panel.wvga
  clockHz := 200000000
  regs := Register.sam9x7
  output := .parallel
  backlight := .gpio
  logo := { LogoConfig.plain with backlightDelayMs := 100 }
  poll := .unbounded

/-- The evaluation board of the first generation, its backlight on the controller. -/
def sama5d2Xult : Board where
  name := "sama5d2-xult"
  panel := Panel.wvga
  clockHz := 166000000
  regs := Register.sama5d2
  output := .parallel
  backlight := .pwm
  logo := { LogoConfig.plain with brightness := 0xE0 }
  poll := .unbounded

/-- Refuses a board that cannot work: a bad panel, no clock, or a serial panel on a controller that has
no stage for its commands. -/
def validate (board : Board) : Except ConfigError Unit := do
  board.panel.validate
  if board.clockHz = 0 then throw .noClock
  if board.output = .mipiDsi ∧ !board.regs.hasSerialStage then throw .noCommandStage

end Board

end BootLogo
