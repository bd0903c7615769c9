/-!
# Registers of a display controller

Registers are named by what they do; a `Register.Map` says where one generation of controllers has them.
-/

namespace BootLogo

/-- The two layers that are used: one flat colour, and an overlay, the only one with a scaler. -/
inductive Layer where
  | base
  | heo
  deriving DecidableEq

def Layer.name : Layer → String
  | .base => "Base"
  | .heo => "Heo"

/-- A direction of scaling. -/
inductive Axis where
  | horizontal
  | vertical
  deriving DecidableEq

/-- A register, named by what it does. -/
inductive Register where
  /-- Configuration of the timing engine. -/
  | cfg (index : Nat)
  /-- Configuration of a layer. -/
  | layerCfg (layer : Layer) (index : Nat)
  /-- Switches a layer on and applies what is staged for it. -/
  | layerEnable (layer : Layer)
  /-- Address of the frame. -/
  | layerAddr (layer : Layer)
  /-- Control word of the frame's descriptor. -/
  | layerCtrl (layer : Layer)
  /-- Address of the next descriptor. -/
  | layerNext (layer : Layer)
  /-- Asks for an attribute update. -/
  | attrUpdate
  deriving DecidableEq

/-- How log lines show a register. -/
def Register.text : Register → String
  | .cfg index => s!"Cfg({index})"
  | .layerCfg layer index =>
    let name := layer.name
    s!"LayerCfg({name}, {index})"
  | .layerEnable layer => "LayerEnable(" ++ layer.name ++ ")"
  | .layerAddr layer => "LayerAddr(" ++ layer.name ++ ")"
  | .layerCtrl layer => "LayerCtrl(" ++ layer.name ++ ")"
  | .layerNext layer => "LayerNext(" ++ layer.name ++ ")"
  | .attrUpdate => "AttrUpdate"

end BootLogo
