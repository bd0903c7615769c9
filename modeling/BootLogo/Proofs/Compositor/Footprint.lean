import BootLogo.Compositor.Sequence
import BootLogo.Proofs.Script.Pace

/-!
# What the parts of a sequence may do

Every part is orderly: it keeps to some limits, and to the controller's sync policy.

* `programming`: a layer is programmed, and nothing but that layer. `tuning`: timing and backlight;
  `dimming`: the backlight alone. `powering`: stages are raised and lowered.
* `quiet`: programming and tuning, the parts that make no request and keep the power. `steering` lifts
  these limits. Nothing within either writes a register that the controller lacks.
-/

namespace BootLogo

open Compositor (State)
open Script

/-- A call that writes nothing that the register map lacks. -/
def Served (map : Register.Map) : Call → Prop
  | .write (.layerCtrl _) _ => map.usesDescriptors
  | .write (.layerNext _) _ => map.usesDescriptors
  | .write .attrUpdate _ => map.attrUpdate.isSome
  | _ => True

/-- A call that asks for no signal and gives none back. -/
def Call.Quiet : Call → Prop
  | .enable _ | .disable _ => False
  | _ => True

/-- The layer that a register belongs to. -/
def Register.layer? : Register → Option Layer
  | .layerCfg layer _ | .layerEnable layer | .layerAddr layer | .layerCtrl layer | .layerNext layer =>
    some layer
  | .cfg _ | .attrUpdate => none

/-- A call that programs a layer. -/
def Call.Programs (layer : Layer) : Call → Prop
  | .write register _ => register.layer? = some layer ∨ register = .attrUpdate
  | .palette other _ => other = layer
  | .taps _ _ => layer = .heo
  | .enable _ | .disable _ => False

namespace Compositor

variable (compositor : Compositor) {limits : Limits} {state : State}

/-! ## Limits -/

/-- The errors that a script ends with of its own: a bad configuration, or one of the `refusals`. -/
def Fails (refusals : Error → Prop) (error : Error) : Prop :=
  (∃ mistake, error = .config mistake) ∨ refusals error

def quiet (compositor : Compositor) (refusals : Error → Prop) : Limits where
  event
    | .call made => Served compositor.map made ∧ made.Quiet
    | .await condition => condition = inSync ∨ condition = attributesTaken
    | _ => True
  change state later := later.power = state.power
  error := Fails refusals

def steering (compositor : Compositor) (refusals : Error → Prop) : Limits where
  event
    | .call made => Served compositor.map made
    | _ => True
  change _ _ := True
  error := Fails refusals

/-- One layer is programmed. The descriptor is the overlay's. -/
def programming (compositor : Compositor) (layer : Layer) (refusals : Error → Prop) : Limits where
  event
    | .call made => Served compositor.map made ∧ made.Programs layer
    | .await condition => condition = inSync ∨ condition = attributesTaken
    | _ => False
  change state later := later.power = state.power ∧ later.lit = state.lit ∧
    (layer = .base → later.descriptor = state.descriptor)
  error := Fails refusals

/-- Timing and backlight: no layer is touched. -/
def tuning : Limits where
  event
    | .call made => ∃ index value, made = .write (.cfg index) value
    | .await condition => condition = inSync
    | .config _ _ | .pin _ | .pause _ => True
    | _ => False
  change state later := later.power = state.power ∧ later.descriptor = state.descriptor
  error error := ∃ mistake, error = .config mistake

/-- The backlight is driven, by the compare value or by the pin. -/
def dimming : Limits where
  event
    | .call made => ∃ value, made = .write (.cfg 6) value
    | .await condition => condition = inSync
    | .config _ _ | .pin _ | .pause _ => True
    | _ => False
  change state later := later.power = state.power ∧ later.descriptor = state.descriptor
  error _ := False

/-- Stages are raised and lowered. -/
def powering : Limits where
  event
    | .call made => ∃ signals, made = .enable signals ∨ made = .disable signals
    | .await _ => True
    | _ => False
  change state later := later.descriptor = state.descriptor
  error _ := False

theorem quiet_le_steering (refusals : Error → Prop) :
    compositor.quiet refusals ≤ compositor.steering refusals := by
  refine ⟨fun event hevent => ?_, fun _ _ _ => trivial, fun _ herror => herror⟩
  cases event with
  | call call => exact hevent.1
  | _ => trivial

theorem programming_le_quiet (layer : Layer) (refusals : Error → Prop) :
    compositor.programming layer refusals ≤ compositor.quiet refusals := by
  refine ⟨fun event hevent => ?_, fun _ _ hchange => hchange.1, fun _ herror => herror⟩
  cases event with
  | call made =>
    refine ⟨hevent.1, ?_⟩
    cases made with
    | enable signals => exact hevent.2
    | disable signals => exact hevent.2
    | _ => trivial
  | await condition => exact hevent
  | _ => trivial

theorem tuning_le_quiet (refusals : Error → Prop) : tuning ≤ compositor.quiet refusals := by
  refine ⟨fun event hevent => ?_, fun _ _ hchange => hchange.1, fun _ herror => .inl herror⟩
  cases event with
  | call made =>
    obtain ⟨index, value, rfl⟩ := hevent
    exact ⟨trivial, trivial⟩
  | await condition => exact .inl hevent
  | _ => trivial

theorem dimming_le_tuning : dimming ≤ tuning := by
  refine ⟨fun event hevent => ?_, fun _ _ hchange => hchange, fun _ herror => herror.elim⟩
  cases event with
  | call made => exact ⟨6, hevent⟩
  | _ => exact hevent

theorem powering_le_steering (refusals : Error → Prop) : powering ≤ compositor.steering refusals := by
  refine ⟨fun event hevent => ?_, fun _ _ _ => trivial, fun _ herror => herror.elim⟩
  cases event with
  | call made =>
    obtain ⟨signals, rfl | rfl⟩ := hevent
    · trivial
    · trivial
  | _ => trivial

/-! ## Access -/

/-- A part of a sequence: within the limits, and in step with the controller. -/
abbrev Proceeds (compositor : Compositor) (limits : Limits) {α : Type} (s : Script α) (state : State) :
    Prop :=
  s.Orderly compositor.map.sync limits state

theorem syncAfter_paced : compositor.syncAfter.Paced compositor.map.sync false := by
  unfold syncAfter
  split
  · exact fun _ => rfl
  · rename_i hsync
    cases hmap : compositor.map.sync with
    | beforeWrite => exact nofun
    | afterWrite => exact absurd hmap hsync

theorem synced_orderly {step : Script Unit} (hsync : limits.event (.await inSync))
    (hstep : ∀ state, step.Within limits state)
    (hpaced : (step.bind fun _ => compositor.syncAfter).Paced compositor.map.sync true) :
    compositor.Proceeds limits (compositor.synced step) state := by
  have hwait (condition : Prop) [Decidable condition] (state : State) :
      (if condition then wait inSync else pure ()).Within limits state := .when fun _ => ⟨hsync, trivial⟩
  refine ⟨.bind (hwait _ state) fun _ later => .bind (hstep later) fun _ => hwait _, ?_⟩
  change (compositor.syncBefore.bind fun _ => step.bind fun _ => compositor.syncAfter).Paced _ _
  unfold syncBefore
  split
  · exact hpaced
  · rename_i hsync
    cases hmap : compositor.map.sync with
    | beforeWrite => exact absurd hmap hsync
    | afterWrite =>
      rw [hmap] at hpaced
      exact hpaced

theorem request_orderly {call : Call} (hsync : limits.event (.await inSync))
    (hcall : limits.event (.call call)) :
    compositor.Proceeds limits (compositor.request call) state :=
  compositor.synced_orderly hsync (fun _ => ⟨hcall, trivial⟩) ⟨rfl, compositor.syncAfter_paced⟩

theorem raise_orderly {stage : Stage} (hsync : limits.event (.await inSync))
    (hcall : limits.event (.call (.enable stage.signal))) (hup : limits.event (.await stage.up)) :
    compositor.Proceeds limits (compositor.raise stage) state :=
  .bind (compositor.request_orderly hsync hcall) fun _ _ => .wait hup

theorem lower_orderly {stage : Stage} (hsync : limits.event (.await inSync))
    (hcall : limits.event (.call (.disable stage.signal)))
    (hdown : limits.event (.await stage.down)) :
    compositor.Proceeds limits (compositor.lower stage) state :=
  .bind (compositor.request_orderly hsync hcall) fun _ _ => .wait hdown

section Parts

variable {refusals : Error → Prop} {layer : Layer}

/-! ## Layers -/

theorem program_orderly {call : Call} (hserved : Served compositor.map call)
    (hlayer : call.Programs layer) :
    compositor.Proceeds (compositor.programming layer refusals) (compositor.request call) state :=
  compositor.request_orderly (.inl rfl) ⟨hserved, hlayer⟩

theorem commit_orderly (layer : Layer) :
    compositor.Proceeds (compositor.programming layer refusals) (compositor.commit layer) state := by
  refine .bind (compositor.program_orderly trivial (.inl rfl)) fun _ _ =>
    .cond (fun hattr => ?_) fun _ => .say
  refine .bind (compositor.program_orderly hattr (.inr rfl)) fun _ _ => ?_
  exact .bind (.wait (.inr rfl)) fun _ _ => .say

theorem layerWrite_orderly {register : Register} {value : UInt32}
    (hserved : Served compositor.map (.write register value)) (hlayer : register.layer? = some layer) :
    compositor.Proceeds (compositor.programming layer refusals)
      (compositor.layerWrite layer register value) state :=
  .bind (compositor.program_orderly hserved (.inl hlayer)) fun _ _ =>
    .bind .look fun _ _ => .when fun _ => compositor.commit_orderly layer

theorem layerConfig_orderly (layer : Layer) (index : Nat) (value : UInt32) :
    compositor.Proceeds (compositor.programming layer refusals)
      (compositor.layerConfig layer index value) state :=
  compositor.layerWrite_orderly trivial rfl

theorem commitDeferred_orderly (layer : Layer) (mode : CommitMode) :
    compositor.Proceeds (compositor.programming layer refusals)
      (compositor.commitDeferred layer mode) state :=
  .when fun _ => compositor.commit_orderly layer

theorem setMode_orderly (mode : CommitMode) :
    compositor.Proceeds (compositor.programming layer refusals) (setMode mode) state :=
  .modify ⟨rfl, rfl, fun _ => rfl⟩

theorem showBase_orderly (mode : CommitMode) :
    compositor.Proceeds (compositor.programming .base refusals) (compositor.showBase mode) state := by
  have hconfig (index : Nat) (value : UInt32) (later : State) :
      compositor.Proceeds (compositor.programming .base refusals)
        (compositor.layerConfig .base index value) later := compositor.layerConfig_orderly .base index value
  have hcommit (later : State) : compositor.Proceeds (compositor.programming .base refusals)
      (compositor.commitDeferred .base mode) later := compositor.commitDeferred_orderly .base mode
  refine .bind (compositor.setMode_orderly mode) fun _ _ => .bind (hconfig 1 _ _) fun _ _ => ?_
  refine .bind (hconfig 3 _ _) fun _ _ => .cond (fun _ => ?_) fun _ => hcommit _
  exact .bind (hconfig 4 0 _) fun _ => hcommit

theorem describeLayer_orderly (image : Bitmap.Image) (placement : Placement) :
    compositor.Proceeds (compositor.programming .heo refusals)
      (compositor.describeLayer image placement) state := by
  have hconfig (index : Nat) (value : UInt32) (later : State) :
      compositor.Proceeds (compositor.programming .heo refusals)
        (compositor.layerConfig .heo index value) later := compositor.layerConfig_orderly .heo index value
  have hpalette (words : List UInt32) (later : State) :
      compositor.Proceeds (compositor.programming .heo refusals) (if image.format.isIndexed then
        compositor.request (.palette .heo words) else pure ()) later :=
    .when fun _ => compositor.program_orderly trivial rfl
  refine .bind (hconfig 0 _ _) fun _ _ => .bind (hconfig 1 _ _) fun _ _ => ?_
  refine .bind (hconfig 2 _ _) fun _ _ => .bind (hconfig 3 _ _) fun _ _ => ?_
  refine .bind (hconfig 4 _ _) fun _ _ => .cond (fun _ => ?_) fun _ => ?_
  · exact .bind (hconfig 5 _ _) fun _ _ => .bind (hconfig 9 _ _) fun _ => hpalette _
  · exact .bind (hconfig 9 _ _) fun _ => hpalette _

theorem pointLayer_orderly (origin : UInt32) :
    compositor.Proceeds (compositor.programming .heo refusals) (compositor.pointLayer origin) state := by
  have hdma (later : State) : compositor.Proceeds (compositor.programming .heo refusals)
      (compositor.layerConfig .heo 12 compositor.map.heoDma) later :=
    compositor.layerConfig_orderly .heo 12 _
  refine .bind (compositor.layerWrite_orderly trivial rfl) fun _ _ =>
    .cond (fun hmap => ?_) fun _ => hdma _
  refine .bind (.modify ⟨rfl, rfl, nofun⟩) fun _ _ =>
    .bind (compositor.layerWrite_orderly hmap rfl) fun _ _ => ?_
  exact .bind (compositor.layerWrite_orderly hmap rfl) fun _ => hdma

theorem scalerStep_orderly (step : Scaler.Step) :
    compositor.Proceeds (compositor.programming .heo refusals) (compositor.scalerStep step) state := by
  cases step with
  | config index value => exact compositor.layerConfig_orderly .heo index value
  | taps axis table => exact compositor.program_orderly trivial rfl

theorem validate_orderly {placement : Placement}
    (herror : ∀ error, Fails refusals error → limits.error error)
    (h : ∀ error, placement.validate = .error error → refusals (.geometry error)) :
    compositor.Proceeds limits (Script.ofExcept (placement.validate.mapError Error.geometry)) state := by
  apply Orderly.ofExcept
  intro error hresult
  cases hvalidate : placement.validate with
  | ok _ =>
    rw [hvalidate] at hresult
    cases hresult
  | error reason =>
    rw [hvalidate] at hresult
    cases hresult
    exact herror _ (.inr (h reason hvalidate))

theorem showLayer_orderly (frame : Frame) {placement : Placement} (mode : CommitMode)
    (h : ∀ error, placement.validate = .error error → refusals (.geometry error)) :
    compositor.Proceeds (compositor.programming .heo refusals)
      (compositor.showLayer frame placement mode) state := by
  have hpoint (later : State) : compositor.Proceeds (compositor.programming .heo refusals)
      ((compositor.pointLayer frame.origin).bind fun _ =>
        (compositor.commitDeferred .heo mode).bind fun _ =>
          say (shownEntry frame.image.format placement)) later :=
    .bind (compositor.pointLayer_orderly _) fun _ _ =>
      .bind (compositor.commitDeferred_orderly .heo mode) fun _ _ => .say
  refine .bind (compositor.validate_orderly (fun _ => id) h) fun _ later => .bind .look fun _ _ => ?_
  refine .cond (fun _ => .fail (.inl ⟨_, rfl⟩)) fun _ =>
    .bind (compositor.setMode_orderly mode) fun _ _ => ?_
  refine .bind (compositor.describeLayer_orderly frame.image placement) fun _ _ => ?_
  refine .cond (fun _ => .bind (.each fun step _ _ => ?_) fun _ => hpoint) fun _ => hpoint _
  exact compositor.scalerStep_orderly step

/-! ## Backlight and timing -/

theorem setBacklight_dims (level : UInt8) :
    compositor.Proceeds dimming (compositor.setBacklight level) state := by
  have hlit (later : State) : compositor.Proceeds dimming
      (if level ≠ 0 then Script.modify fun state => { state with lit := true } else pure ()) later :=
    .when fun _ => .modify ⟨rfl, rfl⟩
  refine .cond (fun hpwm => .bind ?_ fun _ => hlit) fun hpwm => .bind ?_ fun _ => hlit
  · rw [hpwm]
    refine compositor.synced_orderly rfl (fun _ value => ⟨trivial, ⟨_, rfl⟩, trivial⟩) ?_
    exact ⟨fun _ => rfl, fun value => ⟨rfl, compositor.syncAfter_paced⟩⟩
  · cases hkind : compositor.board.backlight with
    | pwm => exact absurd hkind hpwm
    | gpio => exact ⟨⟨trivial, trivial⟩, ⟨id, id⟩⟩

theorem light_dims (level : UInt8) :
    compositor.Proceeds dimming (compositor.light level) state := by
  refine .bind .look fun _ _ => .cond (fun _ => .bind .say fun _ later => ?_) fun _ => ?_
  · exact .bind ⟨⟨trivial, trivial⟩, ⟨id, id⟩⟩ fun _ _ => compositor.setBacklight_dims level
  · exact compositor.setBacklight_dims level

theorem setBacklight_orderly (level : UInt8) :
    compositor.Proceeds tuning (compositor.setBacklight level) state :=
  (compositor.setBacklight_dims level).mono dimming_le_tuning

theorem light_orderly (level : UInt8) :
    compositor.Proceeds tuning (compositor.light level) state :=
  (compositor.light_dims level).mono dimming_le_tuning

theorem timingWords_orderly : compositor.Proceeds tuning
    (Script.ofExcept (compositor.timingWords.mapError Error.config)) state := by
  apply Orderly.ofExcept
  intro error herror
  cases hwords : compositor.timingWords with
  | ok words =>
    rw [hwords] at herror
    cases herror
  | error mistake =>
    rw [hwords] at herror
    cases herror
    exact ⟨mistake, rfl⟩

theorem programTiming_orderly : compositor.Proceeds tuning compositor.programTiming state := by
  refine .bind compositor.timingWords_orderly fun _ _ => .bind (.each fun write _ _ => ?_) fun _ _ => .say
  exact compositor.request_orderly rfl ⟨_, _, rfl⟩

/-! ## Power -/

theorem bringUp_orderly : compositor.Proceeds powering compositor.bringUp state := by
  apply Orderly.each
  intro stage _ later
  refine .bind (compositor.raise_orderly trivial ⟨_, .inl rfl⟩ trivial) fun _ _ => ?_
  exact .bind (.modify rfl) fun _ _ => .say

theorem tearDown_orderly : compositor.Proceeds powering compositor.tearDown state := by
  refine .bind (.each fun stage _ later => ?_) fun _ _ => .modify rfl
  refine .bind (compositor.lower_orderly trivial ⟨_, .inr rfl⟩ trivial) fun _ _ => ?_
  exact .bind (.modify rfl) fun _ _ => .say

/-! ## Sequences -/

theorem init_orderly (hbase : compositor.programming .base refusals ≤ limits) (htuning : tuning ≤ limits)
    (hpowering : powering ≤ limits) : compositor.Proceeds limits compositor.init state := by
  refine .bind (compositor.timingWords_orderly.mono htuning) fun _ _ => ?_
  refine .bind (compositor.tearDown_orderly.mono hpowering) fun _ _ => ?_
  refine .bind (compositor.programTiming_orderly.mono htuning) fun _ _ => ?_
  refine .bind (compositor.bringUp_orderly.mono hpowering) fun _ _ => ?_
  refine .bind ((compositor.setBacklight_orderly 0).mono htuning) fun _ _ => ?_
  exact (compositor.showBase_orderly _).mono hbase

theorem display_orderly (frame : Frame)
    (h : ∀ error, (compositor.place frame.size).validate = .error error → refusals (.geometry error)) :
    compositor.Proceeds (compositor.quiet refusals) (compositor.display frame) state := by
  refine .bind (compositor.validate_orderly (fun _ => id) h) fun _ _ => ?_
  refine .bind ((compositor.showLayer_orderly frame _ h).mono
    (compositor.programming_le_quiet .heo refusals)) fun _ _ => ?_
  exact .bind ((compositor.light_orderly _).mono (compositor.tuning_le_quiet refusals)) fun _ _ => .done

/-! ## Quiet parts -/

theorem commit_quiet (layer : Layer) :
    (compositor.commit layer).Within (compositor.quiet refusals) state :=
  (compositor.commit_orderly layer).within.mono (compositor.programming_le_quiet layer refusals)

theorem showBase_quiet (mode : CommitMode) :
    (compositor.showBase mode).Within (compositor.quiet refusals) state :=
  (compositor.showBase_orderly mode).within.mono (compositor.programming_le_quiet .base refusals)

theorem showLayer_quiet (frame : Frame) {placement : Placement} (mode : CommitMode)
    (h : ∀ error, placement.validate = .error error → refusals (.geometry error)) :
    (compositor.showLayer frame placement mode).Within (compositor.quiet refusals) state :=
  (compositor.showLayer_orderly frame mode h).within.mono (compositor.programming_le_quiet .heo refusals)

theorem setBacklight_quiet (level : UInt8) :
    (compositor.setBacklight level).Within (compositor.quiet refusals) state :=
  (compositor.setBacklight_orderly level).within.mono (compositor.tuning_le_quiet refusals)

theorem timingWords_quiet : (Script.ofExcept (compositor.timingWords.mapError Error.config)).Within
    (compositor.quiet refusals) state :=
  compositor.timingWords_orderly.within.mono (compositor.tuning_le_quiet refusals)

theorem programTiming_quiet : compositor.programTiming.Within (compositor.quiet refusals) state :=
  compositor.programTiming_orderly.within.mono (compositor.tuning_le_quiet refusals)

theorem display_quiet (frame : Frame)
    (h : ∀ error, (compositor.place frame.size).validate = .error error → refusals (.geometry error)) :
    (compositor.display frame).Within (compositor.quiet refusals) state :=
  (compositor.display_orderly frame h).within

end Parts

end Compositor

end BootLogo
