import BootLogo.Logo

/-!
# Sessions

A session is one compositor and one hardware, and `Operation`s one after the other. Every operation leaves
a state and a hardware behind for the next one, also if it fails.
-/

namespace BootLogo

open Compositor (State)

/-- Something that a compositor is asked to do. -/
inductive Operation where
  | init
  | bringUp
  | tearDown
  | programTiming
  | showBase (mode : CommitMode)
  | commit (layer : Layer)
  | backlight (level : UInt8)
  | showLayer (frame : Frame) (placement : Placement) (mode : CommitMode)
  | display (frame : Frame)
  | present (addresses : Logo.Addresses) (buffers : Logo.Buffers)

namespace Operation

/-- What is done; the value is the placement of a picture that was placed on the way. -/
def script (compositor : Compositor) : Operation → Script (Option Placement)
  | .init => compositor.init.bind fun _ => .done none
  | .bringUp => compositor.bringUp.bind fun _ => .done none
  | .tearDown => compositor.tearDown.bind fun _ => .done none
  | .programTiming => compositor.programTiming.bind fun _ => .done none
  | .showBase mode => (compositor.showBase mode).bind fun _ => .done none
  | .commit layer => (compositor.commit layer).bind fun _ => .done none
  | .backlight level => (compositor.setBacklight level).bind fun _ => .done none
  | .showLayer frame placement mode =>
    (compositor.showLayer frame placement mode).bind fun _ => .done none
  | .display frame => (compositor.display frame).bind fun placement => .done (some placement)
  | .present addresses buffers =>
    (Logo.present compositor addresses buffers).script.bind fun placement => .done (some placement)

/-- The log lines at the end of an operation. -/
def closing (operation : Operation) (ending : Ending (Option Placement)) : Log :=
  match operation with
  | .present _ _ => Logo.closing ending
  | _ => []

/-- Carries out an operation on a hardware. -/
def perform {σ : Type} (hardware : Hardware σ) (patience : Nat) (compositor : Compositor)
    (operation : Operation) (state : State) (world : σ) : Run σ (Option Placement) :=
  let run := (operation.script compositor).run hardware compositor.board.poll patience state world
  { run with trace := run.trace ++ (operation.closing run.ending).map Event.note }

end Operation

end BootLogo
