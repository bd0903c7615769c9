import BootLogo.Compositor

/-!
# The order of the stages

* `Stage.up_holds`: a stage is up according to one bit of the status, its own (`Stage.bit`).
* `stages_eq_append`, `nodup_stages`: the stages of a board end with the `lastStage`, and each is there
  once; the clock is never the last.
* `isRunning_iff`: a controller is fully up once the last stage was reached. The power below a stage is
  never that (`not_isRunning_powerBelow`).
* `rank_after_le`: the power after some stages, in the order of the powers.
-/

namespace BootLogo

/-! ## Bits -/

namespace Signals

variable {a b : Signals} {index : Nat}

/-- Whether the bit of this number is set. -/
def test (signals : Signals) (index : Nat) : Bool := signals.bits.toBitVec.getLsbD index

@[simp] theorem test_union : (a.union b).test index = (a.test index || b.test index) := by
  simp [test, union]

@[simp] theorem test_inter : (a.inter b).test index = (a.test index && b.test index) := by
  simp [test, inter]

theorem test_without (hindex : index < 32) :
    (a.without b).test index = (a.test index && !b.test index) := by
  simp [test, without, hindex]

@[simp] theorem test_empty : empty.test index = false := by simp [test, empty]

theorem ne_zero_of_twoPow (hindex : index < 32) : BitVec.twoPow 32 index ≠ 0#32 := by
  intro hzero
  have hbit := congrArg (fun bits => bits.getLsbD index) hzero
  simp [hindex] at hbit

theorem contains_eq_test (hb : b.bits.toBitVec = .twoPow 32 index) (hindex : index < 32) :
    a.contains b = a.test index := by
  have hne := (ne_zero_of_twoPow hindex).symm
  simp only [contains, test, ← UInt32.toBitVec_inj, UInt32.toBitVec_and, hb, BitVec.and_twoPow]
  cases a.bits.toBitVec.getLsbD index with
  | true => simp
  | false => simpa using hne

theorem intersects_eq_test (hb : b.bits.toBitVec = .twoPow 32 index) (hindex : index < 32) :
    a.intersects b = a.test index := by
  have hne := ne_zero_of_twoPow hindex
  simp only [intersects, test, ne_eq, ← UInt32.toBitVec_inj, UInt32.toBitVec_and, hb, BitVec.and_twoPow]
  cases a.bits.toBitVec.getLsbD index with
  | true => simpa using hne
  | false => simp

end Signals

/-! ## Stages -/

namespace Stage

/-- The number of the stage's bit in the status. -/
def bit : Stage → Nat
  | .clock => 0
  | .sync => 1
  | .display => 2
  | .scan => 5
  | .serial => 6
  | .pwm => 3

theorem bit_lt (stage : Stage) : stage.bit < 32 := by cases stage <;> decide

theorem bits_signal (stage : Stage) : stage.signal.bits.toBitVec = .twoPow 32 stage.bit := by
  cases stage <;> decide

theorem test_signal (stage other : Stage) :
    stage.signal.test other.bit = decide (stage = other) := by
  cases stage <;> cases other <;> decide

theorem signal_injective {stage other : Stage} (h : stage.signal = other.signal) : stage = other := by
  have htest := test_signal stage other
  rw [h, test_signal] at htest
  simpa using htest.symm

theorem up_injective {stage other : Stage} (h : stage.up = other.up) : stage = other :=
  signal_injective (congrArg Condition.signals h)

theorem down_ne_up (stage other : Stage) : stage.down ≠ other.up := by
  cases stage <;> cases other <;> decide

theorem reached_injective {stage other : Stage} (h : stage.reached = other.reached) : stage = other := by
  cases stage <;> cases other <;> first | rfl | cases h

theorem reached_ne_off (stage : Stage) : stage.reached ≠ .off := by cases stage <;> decide

theorem up_holds (stage : Stage) (status : Signals) :
    stage.up.holds status = (status.test stage.bit != decide (stage = .scan)) := by
  have hcontains := Signals.contains_eq_test (a := status) stage.bits_signal stage.bit_lt
  have hintersects := Signals.intersects_eq_test (a := status) stage.bits_signal stage.bit_lt
  cases stage with
  | scan => simpa [up, Condition.holds, enabledLevel] using hintersects
  | _ => simpa [up, Condition.holds, enabledLevel] using hcontains

theorem down_holds (stage : Stage) (status : Signals) :
    stage.down.holds status = !stage.up.holds status := by
  have hcontains := Signals.contains_eq_test (a := status) stage.bits_signal stage.bit_lt
  have hintersects := Signals.intersects_eq_test (a := status) stage.bits_signal stage.bit_lt
  rw [up_holds]
  cases stage with
  | scan => simpa [down, Condition.holds, enabledLevel, Level.opposite] using hcontains
  | _ => simpa [down, Condition.holds, enabledLevel, Level.opposite] using hintersects

end Stage

namespace Compositor

variable {compositor : Compositor} {front back : List Stage} {stage : Stage} {power : Power}

/-- The stage that comes up last. -/
def lastStage (compositor : Compositor) : Stage := compositor.stages.getLast?.getD .display

theorem nodup_stages : compositor.stages.Nodup := List.Pairwise.filter _ (by decide)

theorem stages_eq_append : ∃ front,
    compositor.stages = .clock :: front ++ [compositor.lastStage] := by
  obtain ⟨rest, hrest⟩ : ∃ rest, compositor.stages = .clock :: .sync :: rest := ⟨_, rfl⟩
  have hne : Stage.sync :: rest ≠ [] := List.cons_ne_nil _ _
  have hlast : (Stage.sync :: rest).getLast hne = compositor.lastStage := by
    rw [lastStage, hrest, List.getLast?_cons_cons, List.getLast?_eq_some_getLast hne]
    rfl
  refine ⟨(Stage.sync :: rest).dropLast, ?_⟩
  rw [hrest, List.cons_append, ← hlast, List.dropLast_concat_getLast]

theorem lastStage_mem : compositor.lastStage ∈ compositor.stages := by
  obtain ⟨front, hfront⟩ := compositor.stages_eq_append
  rw [hfront]
  exact List.mem_append_right _ List.mem_cons_self

theorem runningPower_eq : compositor.runningPower = compositor.lastStage.reached := by
  obtain ⟨front, hfront⟩ := compositor.stages_eq_append
  show ((compositor.stages.getLast?).map Stage.reached).getD .off = _
  rw [hfront, List.getLast?_concat]
  rfl

theorem isRunning_iff : compositor.isRunning power = true ↔ power = compositor.lastStage.reached := by
  have hoff := compositor.lastStage.reached_ne_off
  rw [isRunning, compositor.runningPower_eq, decide_eq_true_eq]
  constructor
  · exact And.right
  · rintro rfl
    exact ⟨hoff, rfl⟩

theorem isRunning_runningPower : compositor.isRunning compositor.runningPower = true :=
  compositor.isRunning_iff.2 compositor.runningPower_eq

theorem isRunning_reached : compositor.isRunning stage.reached = true ↔ stage = compositor.lastStage := by
  rw [isRunning_iff]
  exact ⟨Stage.reached_injective, congrArg Stage.reached⟩

theorem lastStage_mem_of_append (h : compositor.stages = front ++ back) (hback : back ≠ []) :
    compositor.lastStage ∈ back := by
  obtain ⟨earlier, hearlier⟩ := compositor.stages_eq_append
  have hlast := congrArg List.getLast? (hearlier.symm.trans h)
  rw [List.getLast?_concat, List.getLast?_append, List.getLast?_eq_some_getLast hback,
    Option.some_or] at hlast
  rw [Option.some.inj hlast]
  exact List.getLast_mem hback

theorem eq_lastStage (h : compositor.stages = front ++ [stage]) : stage = compositor.lastStage :=
  (List.mem_singleton.1 (compositor.lastStage_mem_of_append h (List.cons_ne_nil _ _))).symm

theorem head_ne_lastStage (h : compositor.stages = stage :: back) : stage ≠ compositor.lastStage := by
  obtain ⟨front, hfront⟩ := compositor.stages_eq_append
  have hnodup := compositor.nodup_stages
  rw [hfront, List.cons_append] at h hnodup
  rw [← (List.cons.inj h).1]
  rintro hclock
  exact (List.nodup_cons.1 hnodup).1 (hclock ▸ List.mem_append_right _ List.mem_cons_self)

theorem eq_nil_of_lastStage (h : compositor.stages = front ++ compositor.lastStage :: back) :
    back = [] := by
  by_cases hback : back = []
  · exact hback
  · have hstages : compositor.stages = (front ++ [compositor.lastStage]) ++ back := by
      rw [h, List.append_assoc]
      rfl
    have hlast := compositor.lastStage_mem_of_append hstages hback
    have hnodup := compositor.nodup_stages
    rw [h, List.nodup_append] at hnodup
    exact absurd hlast (List.nodup_cons.1 hnodup.2.1).1

theorem not_isRunning_after (h : compositor.stages = front ++ back) (hback : back ≠ []) :
    compositor.isRunning (.after front) = false := by
  have hlast := compositor.lastStage_mem_of_append h hback
  have hnodup := compositor.nodup_stages
  rw [h, List.nodup_append] at hnodup
  rw [← Bool.not_eq_true, isRunning_iff, Power.after]
  cases hfront : front.getLast? with
  | none => exact compositor.lastStage.reached_ne_off.symm
  | some stage =>
    intro hreached
    have hmem := List.mem_of_getLast? hfront
    exact hnodup.2.2 stage hmem _ hlast (Stage.reached_injective hreached)

theorem powerBelow_eq (h : compositor.stages = front ++ stage :: back) :
    compositor.powerBelow stage = .after front := by
  have hnodup := compositor.nodup_stages
  rw [h, List.nodup_append] at hnodup
  show Power.after (compositor.stages.takeWhile (· ≠ stage)) = _
  rw [h, List.takeWhile_append_of_pos, List.takeWhile_cons_of_neg, List.append_nil]
  · simp
  · intro other hother
    simpa using hnodup.2.2 other hother stage List.mem_cons_self

theorem not_isRunning_powerBelow (h : stage ∈ compositor.stages) :
    compositor.isRunning (compositor.powerBelow stage) = false := by
  obtain ⟨front, back, hstages⟩ := List.append_of_mem h
  rw [powerBelow_eq hstages]
  exact compositor.not_isRunning_after hstages (List.cons_ne_nil _ _)

/-! ## How far up -/

theorem sorted_stages :
    compositor.stages.Pairwise fun stage other => stage.reached.rank < other.reached.rank :=
  List.Pairwise.filter _ (by decide)

theorem rank_after_le (hfront : front <+: back) (hback : back <+: compositor.stages) :
    (Power.after front).rank ≤ (Power.after back).rank := by
  obtain ⟨more, rfl⟩ := hfront
  have hsorted := compositor.sorted_stages.sublist hback.sublist
  rw [List.pairwise_append] at hsorted
  rw [Power.after, Power.after, List.getLast?_append]
  cases hmore : more.getLast? with
  | none => exact Nat.le_refl _
  | some last =>
    cases hlast : front.getLast? with
    | none => exact Nat.zero_le _
    | some stage =>
      have hlt := hsorted.2.2 stage (List.mem_of_getLast? hlast) last (List.mem_of_getLast? hmore)
      exact Nat.le_of_lt hlt

end Compositor

end BootLogo
