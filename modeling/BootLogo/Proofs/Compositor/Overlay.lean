import BootLogo.Compositor.Layers
import BootLogo.Proofs.Compositor.Access

/-!
# What the overlay's registers hold

* `showLayerCalls`: all that a picture that is shown tells the controller; `showLayer_plays`.
* `frameRegisters`: where the frame is described. `overlayValue?` is what a picture writes there, and
  `lastWritten?_showLayerCalls` says that nothing else reaches them. A register of a frame for which it
  has no value keeps what an earlier picture left.
* `lastWritten?_scaleRegister`: the same for the register that switches the phase filter on.
-/

namespace BootLogo.Compositor

open Script

variable (compositor : Compositor) {frame : Frame} {image : Bitmap.Image} {placement : Placement}
  {mode : CommitMode} {state : State} {origin : UInt32}

/-! ## Calls -/

def configCalls (compositor : Compositor) (mode : CommitMode) (index : Nat) (value : UInt32) :
    List Call :=
  compositor.stagedCalls mode .heo (.layerCfg .heo index) value

def describeCalls (compositor : Compositor) (mode : CommitMode) (image : Bitmap.Image)
    (placement : Placement) : List Call :=
  let map := compositor.map
  compositor.configCalls mode 0 map.heoCfg0 ++
  compositor.configCalls mode 1 (map.formats.mode image.format) ++
  compositor.configCalls mode 2 (Field.pos (.ofInt placement.x) (.ofInt placement.y)) ++
  compositor.configCalls mode 3
    (Field.size (.ofNat placement.scaled.width) (.ofNat placement.scaled.height)) ++
  compositor.configCalls mode 4
    (Field.size (.ofNat placement.source.width) (.ofNat placement.source.height)) ++
  (if image.stride ≠ 0 then compositor.configCalls mode 5 (.ofInt image.stride) else []) ++
  compositor.configCalls mode 9 (Field.rgb compositor.board.logo.baseColor) ++
  (if image.format.isIndexed then [.palette .heo (Palette.words image.palette)] else [])

def scalerStepCalls (compositor : Compositor) (mode : CommitMode) : Scaler.Step → List Call
  | .config index value => compositor.configCalls mode index value
  | .taps axis table => [.taps axis table]

def scalerCalls (compositor : Compositor) (mode : CommitMode) (placement : Placement) : List Call :=
  (compositor.scaler.program placement.xFactor placement.yFactor).flatMap
    (compositor.scalerStepCalls mode)

def pointCalls (compositor : Compositor) (mode : CommitMode) (origin : UInt32) : List Call :=
  compositor.stagedCalls mode .heo (.layerAddr .heo) origin ++
  (if compositor.map.usesDescriptors then
    compositor.stagedCalls mode .heo (.layerCtrl .heo) Field.dfetch ++
    compositor.stagedCalls mode .heo (.layerNext .heo) compositor.descriptorAddress
  else []) ++
  compositor.configCalls mode 12 compositor.map.heoDma

def showLayerCalls (compositor : Compositor) (frame : Frame) (placement : Placement)
    (mode : CommitMode) : List Call :=
  compositor.describeCalls mode frame.image placement ++
  (if placement.scaling then compositor.scalerCalls mode placement else []) ++
  compositor.pointCalls mode frame.origin ++
  compositor.deferredCalls mode .heo

/-- The state once the overlay points at a frame. -/
def pointed (compositor : Compositor) (origin : UInt32) (state : State) : State :=
  if compositor.map.usesDescriptors then
    { state with descriptor := Descriptor.loop compositor.descriptorAddress origin }
  else state

theorem describeLayer_plays :
    (compositor.describeLayer image placement).Plays state () state
      (compositor.describeCalls state.mode image placement) := by
  have hconfig (index : Nat) (value : UInt32) :
      (compositor.layerConfig .heo index value).Plays state () state
        (compositor.configCalls state.mode index value) := compositor.layerConfig_plays index value
  have hpalette (words : List UInt32) :
      (if image.format.isIndexed then compositor.request (.palette .heo words) else pure ()).Plays
        state () state (if image.format.isIndexed then [.palette .heo words] else []) :=
    Plays.when fun _ => compositor.request_plays (.palette .heo words)
  have hcolor := (hconfig 9 (Field.rgb compositor.board.logo.baseColor)).andThen
    (hpalette (Palette.words image.palette))
  refine .congr ((hconfig 0 _).bind ((hconfig 1 _).bind ((hconfig 2 _).bind ((hconfig 3 _).bind
    ((hconfig 4 _).bind (.cond (fun _ => (hconfig 5 _).bind hcolor) fun _ => hcolor)))))) ?_
  unfold describeCalls
  by_cases hstride : image.stride ≠ 0
  · simp only [if_pos hstride, List.append_assoc]
  · simp only [if_neg hstride, List.append_assoc, List.nil_append]

theorem scalerStep_plays (step : Scaler.Step) :
    (compositor.scalerStep step).Plays state () state
      (compositor.scalerStepCalls state.mode step) := by
  cases step with
  | config index value => exact compositor.layerConfig_plays index value
  | taps axis table => exact compositor.request_plays (.taps axis table)

theorem pointLayer_plays :
    (compositor.pointLayer origin).Plays state () (compositor.pointed origin state)
      (compositor.pointCalls state.mode origin) := by
  have hmode : (compositor.pointed origin state).mode = state.mode := by
    unfold pointed
    split <;> rfl
  have hdma := hmode ▸ @layerConfig_plays compositor .heo (compositor.pointed origin state) 12
    compositor.map.heoDma
  have hwrite {after : State} (register : Register) (value : UInt32) :
      (compositor.layerWrite .heo register value).Plays after () after
        (compositor.stagedCalls after.mode .heo register value) :=
    compositor.layerWrite_plays register value
  unfold pointCalls
  unfold pointed at hdma ⊢
  rw [List.append_assoc]
  refine (hwrite _ _).bind ?_
  by_cases hdescriptors : compositor.map.usesDescriptors = true
  · simp only [hdescriptors, if_true] at hdma ⊢
    rw [List.append_assoc]
    exact (Plays.modify _ state).bind ((hwrite _ _).bind ((hwrite _ _).bind hdma))
  · simp only [hdescriptors] at hdma ⊢
    exact hdma

/-- A picture can be shown: a layer can have its sizes, and the controller is fully up. -/
def Ready (compositor : Compositor) (placement : Placement) (state : State) : Prop :=
  placement.validate = .ok () ∧ compositor.isRunning state.power = true

theorem showLayer_plays (frame : Frame) (mode : CommitMode) (hready : compositor.Ready placement state) :
    (compositor.showLayer frame placement mode).Plays state ()
      (compositor.pointed frame.origin { state with mode := mode })
      (compositor.showLayerCalls frame placement mode) := by
  have hsay (after : State) := Plays.say (shownEntry frame.image.format placement) after
  have hpoint := (@pointLayer_plays compositor { state with mode := mode } frame.origin).andThen
    ((compositor.commitDeferred_plays .heo mode).andThen (hsay _))
  have hscaler := Plays.each (@scalerStep_plays compositor { state with mode := mode })
    (compositor.scaler.program placement.xFactor placement.yFactor)
  have hdown : ¬ (!compositor.isRunning state.power) = true := by
    rw [hready.2]
    exact Bool.false_ne_true
  refine .congr ((Plays.ofExcept hready.1 state).bind ((Plays.state state).bind (.unless hdown
    ((Plays.modify _ state).bind ((compositor.describeLayer_plays).bind
      (.cond (fun _ => hscaler.bind hpoint) fun _ => hpoint)))))) ?_
  unfold showLayerCalls
  by_cases hscaling : placement.scaling = true
  · rw [if_pos hscaling, if_pos hscaling, List.append_nil, List.append_assoc, List.append_assoc]
    rfl
  · rw [if_neg hscaling, if_neg hscaling, List.append_nil, List.append_nil, List.append_assoc]
    rfl

theorem showLayer_refused {σ : Type} (frame : Frame) (mode : CommitMode)
    (hready : ¬ compositor.Ready placement state) (hardware : Hardware σ) (budget : Budget)
    (patience : Nat) (world : σ) :
    ∃ error, (compositor.showLayer frame placement mode).run hardware budget patience state world =
      ⟨.failed error, state, world, []⟩ := by
  unfold showLayer
  cases hvalid : placement.validate with
  | error mistake => exact ⟨.geometry mistake, rfl⟩
  | ok _ =>
    have hdown : (!compositor.isRunning state.power) = true := by
      rw [Bool.not_eq_true', ← Bool.not_eq_true]
      exact fun hrunning => hready ⟨hvalid, hrunning⟩
    refine ⟨.config .notRunning, ?_⟩
    change Script.run _ _ _ (if (!compositor.isRunning state.power) = true then _ else _) _ _ = _
    rw [if_pos hdown]
    rfl

/-! ## Registers -/

/-- Where the overlay's frame is described. -/
def frameRegisters : List Register :=
  [0, 1, 2, 3, 4, 5, 9, 12].map (Register.layerCfg .heo) ++
    [.layerAddr .heo, .layerCtrl .heo, .layerNext .heo]

/-- What is added to the fetch address after each row. -/
def strideRegister : Register := .layerCfg .heo 5

/-- What a picture writes to a register of its frame, if it does. -/
def overlayValue? (compositor : Compositor) (frame : Frame) (placement : Placement) :
    Register → Option UInt32
  | .layerCfg .heo 0 => some compositor.map.heoCfg0
  | .layerCfg .heo 1 => some (compositor.map.formats.mode frame.image.format)
  | .layerCfg .heo 2 => some (Field.pos (.ofInt placement.x) (.ofInt placement.y))
  | .layerCfg .heo 3 =>
    some (Field.size (.ofNat placement.scaled.width) (.ofNat placement.scaled.height))
  | .layerCfg .heo 4 =>
    some (Field.size (.ofNat placement.source.width) (.ofNat placement.source.height))
  | .layerCfg .heo 5 => if frame.image.stride ≠ 0 then some (.ofInt frame.image.stride) else none
  | .layerCfg .heo 9 => some (Field.rgb compositor.board.logo.baseColor)
  | .layerCfg .heo 12 => some compositor.map.heoDma
  | .layerAddr .heo => some frame.origin
  | .layerCtrl .heo => if compositor.map.usesDescriptors then some Field.dfetch else none
  | .layerNext .heo =>
    if compositor.map.usesDescriptors then some compositor.descriptorAddress else none
  | _ => none

variable {compositor} {register : Register}

theorem lastWritten?_configCalls (index : Nat) (value : UInt32)
    (hlayer : register ≠ .layerEnable .heo) (hattr : register ≠ .attrUpdate) :
    lastWritten? register (compositor.configCalls mode index value) =
      if .layerCfg .heo index = register then some value else none :=
  lastWritten?_stagedCalls value hlayer hattr

theorem le_of_config_mem_program {scaler : Scaler} {xFactor yFactor value : UInt32} {index : Nat}
    (h : .config index value ∈ scaler.program xFactor yFactor) : 13 ≤ index := by
  cases scaler with
  | phaseTable =>
    simp only [Scaler.program, List.mem_cons, Scaler.Step.config.injEq, reduceCtorEq, false_or,
      List.not_mem_nil, or_false] at h
    omega
  | ratio =>
    simp only [Scaler.program, List.mem_cons, Scaler.Step.config.injEq, List.not_mem_nil,
      or_false] at h
    omega

theorem lastWritten?_scalerCalls (hlayer : register ≠ .layerEnable .heo)
    (hattr : register ≠ .attrUpdate) (h : ∀ index, 13 ≤ index → register ≠ .layerCfg .heo index) :
    lastWritten? register (compositor.scalerCalls mode placement) = none := by
  apply lastWritten?_flatMap_eq_none
  intro step hstep
  cases step with
  | config index value =>
    rw [scalerStepCalls, lastWritten?_configCalls index value hlayer hattr]
    exact if_neg (h index (le_of_config_mem_program hstep)).symm
  | taps axis table => rfl

theorem lastWritten?_showLayerCalls (h : register ∈ frameRegisters) :
    lastWritten? register (compositor.showLayerCalls frame placement mode) =
      compositor.overlayValue? frame placement register := by
  have hlayer : register ≠ .layerEnable .heo := by
    rintro rfl
    exact absurd h (by decide)
  have hattr : register ≠ .attrUpdate := by
    rintro rfl
    exact absurd h (by decide)
  have hindex : ∀ index, 13 ≤ index → register ≠ .layerCfg .heo index := by
    rintro index hindex rfl
    simp [frameRegisters] at h
    omega
  simp only [showLayerCalls, describeCalls, pointCalls, lastWritten?_append, lastWritten?_ite,
    lastWritten?_configCalls _ _ hlayer hattr, lastWritten?_stagedCalls _ hlayer hattr,
    lastWritten?_deferredCalls hlayer hattr, lastWritten?_scalerCalls hlayer hattr hindex]
  simp only [frameRegisters, List.map_cons, List.map_nil, List.cons_append, List.nil_append,
    List.mem_cons, List.not_mem_nil, or_false] at h
  rcases h with rfl | rfl | rfl | rfl | rfl | rfl | rfl | rfl | rfl | rfl | rfl
  all_goals simp [overlayValue?, lastWritten?_cons, Call.written?]

theorem overlayValue?_eq_none (hregister : register ∈ frameRegisters)
    (h : compositor.overlayValue? frame placement register = none) :
    register = strideRegister ∨
      (register = .layerCtrl .heo ∨ register = .layerNext .heo) ∧ ¬ compositor.map.usesDescriptors := by
  simp only [frameRegisters, List.map_cons, List.map_nil, List.cons_append, List.nil_append,
    List.mem_cons, List.not_mem_nil, or_false] at hregister
  rcases hregister with
    rfl | rfl | rfl | rfl | rfl | rfl | rfl | rfl | rfl | rfl | rfl
  -- all but the stride and what belongs to descriptors is always written
  case inr.inr.inr.inr.inr.inl => exact .inl rfl
  all_goals simp_all [overlayValue?]

/-- The register with the bit that switches the phase filter on. -/
def scaleRegister : Register := .layerCfg .heo 13

def scaleWord (placement : Placement) : UInt32 :=
  Field.scaleEnable ||| ((placement.yFactor &&& Field.factorMask) <<< (16 : UInt32)) |||
    (placement.xFactor &&& Field.factorMask)

theorem lastWritten?_scaleRegister (hscaler : compositor.scaler = .phaseTable) :
    lastWritten? scaleRegister (compositor.showLayerCalls frame placement mode) =
      if placement.scaling then some (scaleWord placement) else none := by
  have hlayer : scaleRegister ≠ .layerEnable .heo := by decide
  have hattr : scaleRegister ≠ .attrUpdate := by decide
  have hscale : lastWritten? scaleRegister (compositor.scalerCalls mode placement) =
      some (scaleWord placement) := by
    rw [scalerCalls, hscaler]
    simp only [Scaler.program, List.flatMap_cons, List.flatMap_nil, scalerStepCalls,
      lastWritten?_append, lastWritten?_configCalls _ _ hlayer hattr]
    rfl
  simp only [showLayerCalls, describeCalls, pointCalls, lastWritten?_append, lastWritten?_ite,
    lastWritten?_configCalls _ _ hlayer hattr, lastWritten?_stagedCalls _ hlayer hattr,
    lastWritten?_deferredCalls hlayer hattr, hscale]
  simp [scaleRegister, lastWritten?_cons, Call.written?]

end BootLogo.Compositor
