import BootLogo.Register.Map

/-!
# Scaling a layer

The two generations scale in different ways, each by a fixed point factor per axis.

* `phaseTable`: a filter of eight phases; `phaseFactor` is computed from the sizes less one and kept
  small enough that the last fetch stays inside the source.
* `ratio`: the plain ratio of the sizes, with twenty binary places.
* `Scaler.program` is what has to be written for a pair of factors.
-/

namespace BootLogo

/-- A way to scale. -/
inductive Scaler where
  | phaseTable
  | ratio
  deriving DecidableEq

namespace Scaler

def name : Scaler → String
  | .phaseTable => "phase-table"
  | .ratio => "ratio"

/-- The phase that the first fetch starts at, in eighths of a pixel. -/
def startPhase : Axis → Nat
  | .horizontal => 4
  | .vertical => 4

/-- The factor of the phase filter, in units of one 2048th of a pixel: the distance between the first and
the last fetch over the number of steps, one less if the last fetch would land past the last pixel.
Zero if there is nothing to step over. -/
def phaseFactor (source target phase : Nat) : Nat :=
  if source = 0 ∨ target ≤ 1 then 0
  else
    let factor := 256 * (8 * (source - 1) - phase) / (target - 1)
    let last := (factor * (target - 1) + 256 * phase) / 2048
    if source - 1 < last ∧ 0 < factor then factor - 1 else factor

/-- The ratio of two sizes with twenty binary places. -/
def ratioFactor (source target : Nat) : Nat := 1048576 * source / target

/-- The factor for an axis, cut to the 32 bits of a register. -/
def factor (scaler : Scaler) (source target : Nat) (axis : Axis) : UInt32 :=
  match scaler with
  | .phaseTable => .ofNat (phaseFactor source target (startPhase axis))
  | .ratio => .ofNat (ratioFactor source target)

/-! ## What is written -/

/-- Filter taps for enlarging across: two words for each of eight phases. -/
def horizontalTaps : List UInt32 :=
  [0xF74949F7, 0x00000000, 0xF55F33FB, 0x000000FE,
    0xF5701EFE, 0x000000FF, 0xF87C0DFF, 0x00000000,
    0x00800000, 0x00000000, 0x0D7CF800, 0x000000FF,
    0x1E70F5FF, 0x000000FE, 0x335FF5FE, 0x000000FB]

/-- Filter taps for enlarging down: a word for each of eight phases. -/
def verticalTaps : List UInt32 :=
  [0x00004040, 0x00075920, 0x00056F0C, 0x00027B03,
    0x00008000, 0x00037B02, 0x000C6F05, 0x00205907]

/-- One thing to write to the overlay. -/
inductive Step where
  /-- A configuration register of the layer. -/
  | config (index : Nat) (value : UInt32)
  /-- The filter taps of an axis. -/
  | taps (axis : Axis) (table : List UInt32)
  deriving DecidableEq

/-- What is written for the factors of both axes, in order. -/
def program (scaler : Scaler) (xFactor yFactor : UInt32) : List Step :=
  match scaler with
  | .phaseTable =>
    [.taps .horizontal horizontalTaps,
      .taps .vertical verticalTaps,
      .config 13 (Field.scaleEnable ||| ((yFactor &&& Field.factorMask) <<< (16 : UInt32)) |||
        (xFactor &&& Field.factorMask))]
  | .ratio =>
    [.config 23 (Field.hxscen ||| Field.hxsyen ||| Field.vxscen ||| Field.vxsyen),
      .config 24 yFactor,
      .config 25 yFactor,
      .config 26 xFactor,
      .config 27 xFactor,
      .config 28 0,
      .config 29 0,
      .config 30 (Field.vxscbicu ||| Field.vxsccfg 1 ||| Field.vxsybicu ||| Field.vxsycfg 1),
      .config 31 (Field.hxscbicu ||| Field.hxsccfg 1 ||| Field.hxsybicu ||| Field.hxsycfg 1)]

end Scaler

/-- The scaler that a generation has. -/
def Register.Generation.scaler : Register.Generation → Scaler
  | .lcdc => .phaseTable
  | .xlcdc => .ratio

end BootLogo
