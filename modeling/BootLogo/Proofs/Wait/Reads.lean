import BootLogo.Hardware.Recorder
import BootLogo.Proofs.Stage
import BootLogo.Proofs.Wait
import BootLogo.Script.Run

/-!
# How often a wait reads

Before a wait begins, all that its source would show is one endless sequence of statuses. Where in it the
condition is met first says how often the wait reads and how it ends.

* `Condition.holds_iff`: what a condition asks, signal by signal.
* `FirstMet`: the number of the first status in it that meets the condition.
* `loop_reads`: the loop stops with that status, or with the last that it may read.
* `wait_reads`: what that means for both budgets, and that a wait does nothing but read.
-/

namespace BootLogo

open Compositor (State)

/-! ## Signal by signal -/

namespace Signals

variable {a b : Signals}

theorem eq_iff_test {a b : UInt32} : a = b ↔ ∀ index, test ⟨a⟩ index = test ⟨b⟩ index := by
  rw [← UInt32.toBitVec_inj]
  exact ⟨fun h index => congrArg (·.getLsbD index) h, fun h => BitVec.eq_of_getLsbD_eq fun index _ => h index⟩

theorem contains_iff : a.contains b = true ↔ ∀ index, b.test index = true → a.test index = true := by
  rw [contains, decide_eq_true_iff, eq_iff_test]
  refine forall_congr' fun index => ?_
  change (a.inter b).test index = b.test index ↔ _
  rw [test_inter]
  cases a.test index <;> cases b.test index <;> simp

theorem not_intersects_iff :
    a.intersects b = false ↔ ∀ index, b.test index = true → a.test index = false := by
  rw [intersects, decide_eq_false_iff_not, Decidable.not_not, eq_iff_test]
  refine forall_congr' fun index => ?_
  change (a.inter b).test index = empty.test index ↔ _
  rw [test_inter, test_empty]
  cases a.test index <;> cases b.test index <;> simp

end Signals

theorem Condition.holds_iff {condition : Condition} {status : Signals} :
    condition.holds status = true ↔ ∀ index, condition.signals.test index = true →
      status.test index = decide (condition.level = .set) := by
  unfold holds
  cases condition.level with
  | set => exact Signals.contains_iff
  | clear =>
    rw [Bool.not_eq_true', Signals.not_intersects_iff]
    rfl

namespace Wait

variable {σ : Type} {read : σ → Signals × σ} {condition : Condition} {shown : Nat → Signals} {source : σ}
  {count other : Nat}

/-! ## What a source would show -/

theorem forall_mem_readings {p : Signals → Prop} :
    (∀ status ∈ (readings read count source).1, p status) ↔
      ∀ index < count, p (statuses read source index) := by
  rw [readings_eq_map, List.forall_mem_map]
  exact forall_congr' fun index => by rw [List.mem_range]

/-- The condition is met by the status of this number, counted from one, and by none before. -/
structure FirstMet (condition : Condition) (shown : Nat → Signals) (count : Nat) : Prop where
  pos : 0 < count
  met : condition.holds (shown (count - 1)) = true
  missed : ∀ index < count - 1, condition.holds (shown index) = false

theorem FirstMet.lt_of_missed (h : FirstMet condition shown count)
    (hmissed : ∀ index < other, condition.holds (shown index) = false) : other < count := by
  refine Nat.lt_of_not_le fun hle => ?_
  have hpos := h.pos
  have hmiss := hmissed (count - 1) (by omega)
  rw [h.met] at hmiss
  cases hmiss

theorem FirstMet.unique (h : FirstMet condition shown count)
    (hother : FirstMet condition shown other) : count = other := by
  have hlt := h.lt_of_missed hother.missed
  have hgt := hother.lt_of_missed h.missed
  omega

/-! ## What a wait reads of it -/

/-- The loop stops with the first status that meets the condition, or it has read all that it may. -/
theorem loop_reads (read : σ → Signals × σ) (condition : Condition) (source : σ) (left : Nat) :
    let outcome (held : Bool) (count : Nat) :=
      (held, (readings read count source).1.toArray, (readings read count source).2)
    (∃ count ≤ left, FirstMet condition (statuses read source) count ∧
        loop read condition #[] left source = outcome true count) ∨
      (∀ count ≤ left, ¬ FirstMet condition (statuses read source) count) ∧
        loop read condition #[] left source = outcome false left := by
  intro outcome
  obtain ⟨count, hmissed, ⟨rfl, hloop⟩ | ⟨hcount, hmet, hloop⟩⟩ := @loop_eq σ read condition source left #[]
  all_goals rw [forall_mem_readings] at hmissed
  · refine .inr ⟨fun other hother h => ?_, by simpa [outcome] using hloop⟩
    exact absurd (h.lt_of_missed hmissed) (Nat.not_lt.2 hother)
  · refine .inl ⟨count + 1, hcount, ⟨Nat.succ_pos count, hmet, hmissed⟩, hloop.trans ?_⟩
    simp [outcome, readings_succ]

/-- A wait that has finished after so many readings, and did nothing else. -/
def finished (read : σ → Signals × σ) (source : σ) (ending : Ending) (count : Nat) : Wait σ :=
  ⟨ending, (readings read count source).1, (readings read count source).2⟩

theorem poll_of_firstMet {budget : Budget} (patience : Nat)
    (h : FirstMet condition (statuses read source) count) (hcount : count ≤ budget.reads patience) :
    poll read condition budget patience source = finished read source (.met (min count countLimit)) count := by
  rcases loop_reads read condition source (budget.reads patience) with
    ⟨other, -, hother, hloop⟩ | ⟨hnever, -⟩
  · obtain rfl := h.unique hother
    simp [poll, hloop, finished, length_readings]
  · exact absurd h (hnever count hcount)

theorem poll_of_never {limit : Nat} (patience : Nat)
    (h : ∀ count ≤ max limit 1, ¬ FirstMet condition (statuses read source) count) :
    poll read condition (.spins limit) patience source =
      finished read source (.timedOut ⟨condition, max limit 1⟩) (max limit 1) := by
  rcases loop_reads read condition source (max limit 1) with ⟨count, hcount, hmet, -⟩ | ⟨-, hloop⟩
  · exact absurd hmet (h count hcount)
  · simp [poll, Budget.reads, hloop, finished, length_readings]

theorem run_wait (hardware : Hardware σ) (condition : Condition) (budget : Budget) (patience : Nat)
    (state : State) (world : σ) :
    let wait := poll hardware.status condition budget patience world
    (Script.wait condition).run hardware budget patience state world = {
      ending :=
        match wait.ending with
        | .met _ => .ok ()
        | .timedOut expired => .failed (.timeout state.power expired)
        | .unanswered => .stalled
      state := state
      hardware := wait.source
      trace := .await condition :: wait.seen.map Event.status } := by
  intro wait
  simp only [Script.wait, Script.run, wait]
  cases (poll hardware.status condition budget patience world).ending with
  | met count => simp [Run.after]
  | timedOut expired => rfl
  | unanswered => rfl

/-- **A wait reads until its condition is met, and no further than its budget goes.** A budget of zero is one
of one; without a budget any patience will do that lasts until the condition is met. -/
theorem wait_reads (hardware : Hardware σ) (condition : Condition) (world : σ) :
    let shown := statuses hardware.status world
    let finished := finished hardware.status world
    (∀ status, condition.holds status = true ↔ ∀ index, condition.signals.test index = true →
      status.test index = decide (condition.level = .set)) ∧
    (∀ limit < wordLimit, ∀ patience,
      let most := max limit 1
      let wait := poll hardware.status condition (.spins limit) patience world
      (∀ count ≤ most, FirstMet condition shown count → wait = finished (.met count) count) ∧
      ((∀ count ≤ most, ¬ FirstMet condition shown count) →
        wait = finished (.timedOut ⟨condition, most⟩) most)) ∧
    (∀ count patience, FirstMet condition shown count → count ≤ patience →
      poll hardware.status condition .unbounded patience world =
        finished (.met (min count (wordLimit - 1))) count) ∧
    ∀ budget patience state,
      let wait := poll hardware.status condition budget patience world
      let run := (Script.wait condition).run hardware budget patience state world
      (∀ count, wait.ending = .met count → run.ending = .ok ()) ∧
      (∀ expired, wait.ending = .timedOut expired → run.ending = .failed (.timeout state.power expired)) ∧
      run.state = state ∧ run.hardware = wait.source ∧
      run.trace = .await condition :: wait.seen.map Event.status := by
  intro shown finished
  refine ⟨fun _ => Condition.holds_iff, fun limit hlimit patience => ?_, fun count patience hmet hcount => ?_,
    fun budget patience state => ?_⟩
  · refine ⟨fun count hcount hmet => ?_, poll_of_never patience⟩
    have hmost : max limit 1 ≤ countLimit := Nat.max_le.2 ⟨Nat.le_pred_of_lt hlimit, by decide⟩
    have hfits : count ≤ countLimit := Nat.le_trans hcount hmost
    have hpoll := poll_of_firstMet patience hmet (show count ≤ (Budget.spins limit).reads patience from hcount)
    rwa [Nat.min_eq_left hfits] at hpoll
  · exact poll_of_firstMet patience hmet (show count ≤ Budget.unbounded.reads patience from hcount)
  · intro wait run
    have hrun := run_wait hardware condition budget patience state world
    refine ⟨fun count hending => ?_, fun expired hending => ?_, ?_⟩
    · simp only [run, hrun, wait] at hending ⊢
      rw [hending]
    · simp only [run, hrun, wait] at hending ⊢
      rw [hending]
    · simp only [run, hrun]
      exact ⟨trivial, rfl, rfl⟩

/-- A recorder that is busy for three more readings. -/
def busyThrice : Recorder := { Recorder.fresh with busyLeft := 3 }

theorem wait_reads_busyThrice :
    let idle : Condition := ⟨Signals.syncBusy, .clear⟩
    let wait (budget : Budget) := poll Recorder.hardware.status idle budget 4 busyThrice
    let finished := finished Recorder.hardware.status busyThrice
    FirstMet idle (statuses Recorder.hardware.status busyThrice) 4 ∧
      wait (.spins 4) = finished (.met 4) 4 ∧ wait (.spins 3) = finished (.timedOut ⟨idle, 3⟩) 3 ∧
      wait (.spins 0) = finished (.timedOut ⟨idle, 1⟩) 1 ∧ wait .unbounded = finished (.met 4) 4 := by
  intro idle wait finished
  obtain ⟨-, hspins, hunbounded, -⟩ := wait_reads Recorder.hardware idle busyThrice
  have hmet : FirstMet idle (statuses Recorder.hardware.status busyThrice) 4 :=
    ⟨by decide, by decide, by decide⟩
  have hnever {most : Nat} (hmost : most < 4) :
      ∀ count ≤ most, ¬ FirstMet idle (statuses Recorder.hardware.status busyThrice) count := by
    intro count hcount h
    have hfour := h.unique hmet
    omega
  exact ⟨hmet, (hspins 4 (by decide) 4).1 4 (by decide) hmet, (hspins 3 (by decide) 4).2 (hnever (by decide)),
    (hspins 0 (by decide) 4).2 (hnever (by decide)), hunbounded 4 4 hmet (by decide)⟩

end Wait

end BootLogo
