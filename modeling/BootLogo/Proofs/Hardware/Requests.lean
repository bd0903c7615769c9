import BootLogo.Hardware.Recorder
import BootLogo.Proofs.Script.Play
import BootLogo.Proofs.Stage

/-!
# Requests for stages, and what a recorder shows

A recorder acknowledges a request for a stage in the bit of that stage and in no other, unless the signal
is stuck. What is read of a stage is what the status says of it: the busy bits are others.
-/

namespace BootLogo

/-- The latest request for a signal; the latest call comes first. -/
def latestRequest? (signals : Signals) (past : List Call) : Option Call :=
  past.find? fun
    | .enable asked | .disable asked => asked = signals
    | _ => false

/-- The call that asks for a stage, or gives it back. -/
def Stage.ask (stage : Stage) (on : Bool) : Call :=
  if on then .enable stage.signal else .disable stage.signal

abbrev Recorder.machine (budget : Budget) (patience : Nat) : Machine Recorder :=
  ⟨Recorder.hardware, budget, patience⟩

namespace Recorder

variable {recorder : Recorder} {stage other : Stage} {on : Bool}

theorem test_acknowledge : (recorder.acknowledge stage.signal on).test other.bit =
    if stage = other ∧ recorder.stuck.test other.bit = false then on != decide (other = .scan)
    else recorder.status.test other.bit := by
  have hscan : Signals.scan.test other.bit = decide (other = .scan) :=
    (Stage.scan.test_signal other).trans (decide_eq_decide.2 eq_comm)
  have hacknowledge : (recorder.acknowledge stage.signal on).test other.bit =
      let moved := decide (stage = other) && !recorder.stuck.test other.bit
      let inverted := moved && decide (other = .scan)
      let plain := moved && !decide (other = .scan)
      if on then recorder.status.test other.bit && !inverted || plain
      else recorder.status.test other.bit && !plain || inverted := by
    cases on with
    | true =>
      simp only [acknowledge, if_true, Signals.test_union, Signals.test_without other.bit_lt,
        Signals.test_inter, Stage.test_signal, hscan]
    | false =>
      simp only [acknowledge, Bool.false_eq_true, if_false, Signals.test_union,
        Signals.test_without other.bit_lt, Signals.test_inter, Stage.test_signal, hscan]
  rw [hacknowledge]
  by_cases hsame : stage = other <;> cases recorder.stuck.test other.bit <;> cases on <;>
    cases decide (other = Stage.scan) <;> simp [hsame]

theorem status_ask : (recorder.apply (stage.ask on)).status = recorder.acknowledge stage.signal on := by
  cases on <;> rfl

theorem up_ask : other.up.holds (recorder.apply (stage.ask on)).status =
    if stage = other ∧ recorder.stuck.test other.bit = false then on
    else other.up.holds recorder.status := by
  rw [Stage.up_holds, Stage.up_holds, status_ask, test_acknowledge]
  split
  · cases on <;> cases decide (other = .scan) <;> rfl
  · rfl

theorem up_of_ask (stage : Stage) (on : Bool) (hkept : on = true ∨ stage ≠ other)
    (h : other.up.holds recorder.status = true) :
    other.up.holds (recorder.apply (stage.ask on)).status = true := by
  rw [up_ask]
  split
  · rename_i hacknowledged
    exact hkept.resolve_right (not_not_intro hacknowledged.1)
  · exact h

theorem latestRequest?_ask (on : Bool) (hne : stage ≠ other) :
    latestRequest? other.signal (recorder.apply (stage.ask on)).past =
      latestRequest? other.signal recorder.past := by
  have hsignal : ¬ stage.signal = other.signal := fun h => hne (Stage.signal_injective h)
  cases on <;> exact List.find?_cons_of_neg (by simpa [Stage.ask] using hsignal)

theorem latestRequest?_disable_self :
    latestRequest? stage.signal (Recorder.apply (.disable stage.signal) recorder).past =
      some (.disable stage.signal) :=
  List.find?_cons_of_pos (by simp)

/-! ## Reading -/

theorem up_readStatus (hjam : recorder.jamFrom = none) :
    stage.up.holds recorder.readStatus.1 = stage.up.holds recorder.status := by
  have hbusy : (Signals.syncBusy.union Signals.attrBusy).test stage.bit = false := by
    cases stage <;> decide
  have hread : recorder.readStatus.1.test stage.bit = recorder.status.test stage.bit := by
    show ((recorder.status.union _).union recorder.jam).test stage.bit = _
    rw [jam, hjam, Signals.test_union, Signals.test_union, Signals.test_empty, Bool.or_false]
    split
    · rw [hbusy, Bool.or_false]
    · rw [Signals.test_empty, Bool.or_false]
  rw [Stage.up_holds, Stage.up_holds, hread]

theorem readings_up (stage : Stage) (hjam : recorder.jamFrom = none) (count : Nat) :
    let readings := Wait.readings Recorder.hardware.status count recorder
    (∀ status ∈ readings.1, stage.up.holds status = stage.up.holds recorder.status) ∧
      readings.2.status = recorder.status ∧ readings.2.past = recorder.past ∧
        readings.2.jamFrom = none := by
  let same (later : Recorder) : Prop :=
    later.status = recorder.status ∧ later.past = recorder.past ∧ later.jamFrom = none
  have hread (later : Recorder) (h : same later) :
      stage.up.holds later.readStatus.1 = stage.up.holds recorder.status ∧ same later.readStatus.2 := by
    rw [up_readStatus h.2.2, h.1]
    exact ⟨rfl, h⟩
  have hsame : same recorder := ⟨rfl, rfl, hjam⟩
  exact Wait.readings_of_invariant hread count hsame

theorem up_of_missed (hjam : recorder.jamFrom = none) {count : Nat} (hpos : 0 < count)
    (hmissed : ∀ status ∈ (Wait.readings Recorder.hardware.status count recorder).1,
      stage.down.holds status = false) : stage.up.holds recorder.status = true := by
  have hlength : (Wait.readings Recorder.hardware.status count recorder).1.length = count :=
    Wait.length_readings count
  obtain ⟨status, hstatus⟩ := List.exists_mem_of_length_pos (hlength ▸ hpos)
  have hup := (readings_up stage hjam count).1 status hstatus
  have hdown := hmissed status hstatus
  rw [Stage.down_holds, hup] at hdown
  simpa using hdown

end Recorder

end BootLogo
