import BootLogo.Compositor.Layers
import BootLogo.Proofs.Compositor.Access

/-!
# What the base layer shows

* `baseCalls`: all that `showBase` tells the controller (`showBase_plays`).
* `BaseShown`: the flat colour was staged and then committed. Each run of `showBase` does that in either
  commit mode (`baseShown_baseCalls`), and it stays so whatever comes before or after.
-/

namespace BootLogo.Compositor

open Script

variable {compositor : Compositor} {calls : List Call} {mode : CommitMode} {state : State}

/-- The registers of the base layer hold the flat colour; the second generation has one more. -/
structure BaseStaged (compositor : Compositor) (calls : List Call) : Prop where
  mode : lastWritten? (.layerCfg .base 1) calls = some compositor.map.baseMode
  color : lastWritten? (.layerCfg .base 3) calls = some (Field.rgb compositor.board.logo.baseColor)
  plain : compositor.map.generation = .xlcdc → lastWritten? (.layerCfg .base 4) calls = some 0

/-- The base layer was committed with the flat colour in its registers. -/
def BaseShown (compositor : Compositor) (calls : List Call) : Prop :=
  ∃ staged rest, compositor.BaseStaged staged ∧
    calls = staged ++ .write (.layerEnable .base) compositor.map.commit :: rest

theorem BaseShown.append (h : compositor.BaseShown calls) (later : List Call) :
    compositor.BaseShown (calls ++ later) := by
  obtain ⟨staged, rest, hstaged, rfl⟩ := h
  exact ⟨staged, rest ++ later, hstaged, by rw [List.append_assoc, List.cons_append]⟩

theorem BaseShown.prepend (h : compositor.BaseShown calls) (earlier : List Call) :
    compositor.BaseShown (earlier ++ calls) := by
  obtain ⟨staged, rest, hstaged, rfl⟩ := h
  have hlast {register : Register} {value : UInt32} (h : lastWritten? register staged = some value) :
      lastWritten? register (earlier ++ staged) = some value := by
    rw [lastWritten?_append, h]
    rfl
  refine ⟨earlier ++ staged, rest, ?_, (List.append_assoc _ _ _).symm⟩
  exact ⟨hlast hstaged.mode, hlast hstaged.color, fun hmap => hlast (hstaged.plain hmap)⟩

theorem BaseShown.ne_none (h : compositor.BaseShown calls) :
    lastWritten? (.layerCfg .base 1) calls ≠ none := by
  obtain ⟨staged, rest, hstaged, rfl⟩ := h
  rw [lastWritten?_append, hstaged.mode]
  cases lastWritten? (.layerCfg .base 1) (.write (.layerEnable .base) compositor.map.commit :: rest) with
  | none => nofun
  | some value => nofun

def colorCalls (compositor : Compositor) (mode : CommitMode) (index : Nat) (value : UInt32) :
    List Call :=
  compositor.stagedCalls mode .base (.layerCfg .base index) value

def baseCalls (compositor : Compositor) (mode : CommitMode) : List Call :=
  compositor.colorCalls mode 1 compositor.map.baseMode ++
    compositor.colorCalls mode 3 (Field.rgb compositor.board.logo.baseColor) ++
    (if compositor.map.generation = .xlcdc then compositor.colorCalls mode 4 0 else []) ++
    compositor.deferredCalls mode .base

theorem showBase_plays : (compositor.showBase mode).Plays state () { state with mode := mode }
    (compositor.baseCalls mode) := by
  have hconfig (index : Nat) (value : UInt32) :
      (compositor.layerConfig .base index value).Plays { state with mode := mode } ()
        { state with mode := mode } (compositor.colorCalls mode index value) :=
    compositor.layerConfig_plays index value
  have hcommit : (compositor.commitDeferred .base mode).Plays { state with mode := mode } ()
      { state with mode := mode } (compositor.deferredCalls mode .base) :=
    compositor.commitDeferred_plays .base mode
  refine .congr ((Plays.modify _ state).bind ((hconfig 1 _).bind ((hconfig 3 _).bind
    (.cond (fun _ => (hconfig 4 0).bind hcommit) fun _ => hcommit)))) ?_
  unfold baseCalls
  by_cases hmap : compositor.map.generation = .xlcdc
  · simp only [if_pos hmap, List.append_assoc, List.nil_append]
  · simp only [if_neg hmap, List.append_assoc, List.nil_append]

theorem stagedCalls_append_deferredCalls (layer : Layer) (register : Register) (value : UInt32) :
    compositor.stagedCalls mode layer register value ++ compositor.deferredCalls mode layer =
      .write register value :: compositor.commitCalls layer := by
  cases mode with
  | deferred => rfl
  | immediate => exact List.append_nil _

theorem lastWritten?_colorCalls (index other : Nat) (value : UInt32) :
    lastWritten? (.layerCfg .base other) (compositor.colorCalls mode index value) =
      if index = other then some value else none := by
  refine (lastWritten?_stagedCalls value Register.noConfusion Register.noConfusion).trans ?_
  simp only [Register.layerCfg.injEq, true_and]

theorem baseShown_baseCalls : compositor.BaseShown (compositor.baseCalls mode) := by
  have hwrite (index other : Nat) (value : UInt32) :
      lastWritten? (.layerCfg .base other) [.write (.layerCfg .base index) value] =
        if index = other then some value else none := by
    simp [lastWritten?_cons, Call.written?]
  unfold baseCalls
  by_cases hmap : compositor.map.generation = .xlcdc
  · refine ⟨compositor.colorCalls mode 1 compositor.map.baseMode ++
      compositor.colorCalls mode 3 (Field.rgb compositor.board.logo.baseColor) ++
      [.write (.layerCfg .base 4) 0], (compositor.commitCalls .base).tail, ⟨?_, ?_, fun _ => ?_⟩, ?_⟩
    · simp [lastWritten?_append, lastWritten?_colorCalls, hwrite]
    · simp [lastWritten?_append, lastWritten?_colorCalls, hwrite]
    · simp [lastWritten?_append, hwrite]
    · rw [if_pos hmap, List.append_assoc, colorCalls, colorCalls, colorCalls,
        stagedCalls_append_deferredCalls, List.append_assoc _ [_]]
      rfl
  · refine ⟨compositor.colorCalls mode 1 compositor.map.baseMode ++
      [.write (.layerCfg .base 3) (Field.rgb compositor.board.logo.baseColor)],
      (compositor.commitCalls .base).tail, ⟨?_, ?_, fun h => absurd h hmap⟩, ?_⟩
    · simp [lastWritten?_append, lastWritten?_colorCalls, hwrite]
    · simp [lastWritten?_append, hwrite]
    · rw [if_neg hmap, List.append_nil, List.append_assoc, colorCalls, colorCalls,
        stagedCalls_append_deferredCalls, List.append_assoc _ [_]]
      rfl

end BootLogo.Compositor
