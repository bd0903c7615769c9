import BootLogo.Wait.Playback

/-!
# What a wait reads

* `loop_eq`: the loop of a wait passes over the readings that miss its condition, up to one that meets it
  or until it has made all that it may.
* `poll_met`, `poll_timedOut`: the same for the wait as a whole; `poll_answered` says when it is met.
* `poll_playback`: a wait cannot tell a source from a playback of what it would read there.
-/

namespace BootLogo.Wait

variable {σ : Type} {read : σ → Signals × σ} {condition : Condition} {budget : Budget}
  {patience : Nat} {source : σ}

theorem loop_eq (left : Nat) (seen : Array Signals) :
    ∃ count, (∀ status ∈ (readings read count source).1, condition.holds status = false) ∧
      (count = left ∧ loop read condition seen left source =
          (false, seen ++ (readings read count source).1.toArray, (readings read count source).2) ∨
        count < left ∧ condition.holds (read (readings read count source).2).1 = true ∧
          loop read condition seen left source =
            (true, (seen ++ (readings read count source).1.toArray).push
                (read (readings read count source).2).1,
              (read (readings read count source).2).2)) := by
  induction left generalizing source seen with
  | zero => exact ⟨0, by simp [readings], .inl ⟨rfl, by simp [loop, readings]⟩⟩
  | succ left ih =>
    by_cases hholds : condition.holds (read source).1 = true
    · exact ⟨0, by simp [readings], .inr ⟨Nat.succ_pos left, hholds, by simp [loop, readings, hholds]⟩⟩
    · obtain ⟨count, hmissed, hloop⟩ := @ih (read source).2 (seen.push (read source).1)
      rw [Bool.not_eq_true] at hholds
      have hpush : seen.push (read source).1 ++ (readings read count (read source).2).1.toArray =
          seen ++ (readings read (count + 1) source).1.toArray := by simp [readings]
      have hnext : loop read condition seen (left + 1) source =
          loop read condition (seen.push (read source).1) left (read source).2 := by simp [loop, hholds]
      refine ⟨count + 1, List.forall_mem_cons.2 ⟨hholds, hmissed⟩, ?_⟩
      rw [hnext]
      rcases hloop with ⟨rfl, hloop⟩ | ⟨hleft, hlast, hloop⟩
      · exact .inl ⟨rfl, hloop.trans (by rw [hpush]; rfl)⟩
      · exact .inr ⟨Nat.succ_lt_succ hleft, hlast, hloop.trans (by rw [hpush]; rfl)⟩

theorem poll_met {reads : Nat}
    (h : (poll read condition budget patience source).ending = .met reads) :
    ∃ count, (∀ status ∈ (readings read count source).1, condition.holds status = false) ∧
      condition.holds (read (readings read count source).2).1 = true ∧
      (poll read condition budget patience source).seen = (readings read (count + 1) source).1 ∧
      (poll read condition budget patience source).source = (readings read (count + 1) source).2 := by
  obtain ⟨count, hmissed, ⟨-, hloop⟩ | ⟨-, hlast, hloop⟩⟩ :=
    @loop_eq σ read condition source (budget.reads patience) #[]
  · simp only [poll, hloop] at h
    cases budget with
    | unbounded => cases h
    | spins limit => cases h
  · exact ⟨count, hmissed, hlast, by simp [poll, hloop, readings_succ],
      by simp [poll, hloop, readings_succ]⟩

theorem poll_timedOut {expired : Timeout}
    (h : (poll read condition budget patience source).ending = .timedOut expired) :
    ∃ count, (∀ status ∈ (readings read count source).1, condition.holds status = false) ∧ 0 < count ∧
      (poll read condition budget patience source).seen = (readings read count source).1 ∧
      (poll read condition budget patience source).source = (readings read count source).2 ∧
      expired = ⟨condition, count⟩ := by
  obtain ⟨count, hmissed, ⟨hcount, hloop⟩ | ⟨-, hlast, hloop⟩⟩ :=
    @loop_eq σ read condition source (budget.reads patience) #[]
  · cases budget with
    | unbounded =>
      simp only [poll, hloop] at h
      cases h
    | spins limit =>
      have hpos : 0 < count := by
        rw [hcount]
        simp only [Budget.reads]
        omega
      refine ⟨count, hmissed, hpos, by simp [poll, hloop], by simp [poll, hloop], ?_⟩
      simp [poll, hloop, length_readings] at h
      exact h.symm
  · simp only [poll, hloop] at h
    cases h

theorem poll_unanswered (h : (poll read condition budget patience source).ending = .unanswered) :
    ∃ count, (∀ status ∈ (readings read count source).1, condition.holds status = false) ∧
      (poll read condition budget patience source).seen = (readings read count source).1 ∧
      (poll read condition budget patience source).source = (readings read count source).2 := by
  obtain ⟨count, hmissed, ⟨-, hloop⟩ | ⟨-, -, hloop⟩⟩ :=
    @loop_eq σ read condition source (budget.reads patience) #[]
  · exact ⟨count, hmissed, by simp [poll, hloop], by simp [poll, hloop]⟩
  · simp only [poll, hloop] at h
    cases h

theorem poll_answered
    (h : ∃ status ∈ (readings read (budget.reads patience) source).1, condition.holds status = true) :
    ∃ reads, (poll read condition budget patience source).ending = .met reads := by
  obtain ⟨status, hstatus, hholds⟩ := h
  obtain ⟨count, hmissed, ⟨rfl, -⟩ | ⟨-, -, hloop⟩⟩ :=
    @loop_eq σ read condition source (budget.reads patience) #[]
  · rw [hmissed status hstatus] at hholds
    cases hholds
  · simp only [poll, hloop, if_true]
    exact ⟨_, rfl⟩

/-! ## Playing back -/

theorem loop_congr {τ : Type} {twin : τ → Signals × τ} {other : τ} (left : Nat) (seen : Array Signals)
    (h : (readings read left source).1 = (readings twin left other).1) :
    (loop read condition seen left source).1 = (loop twin condition seen left other).1 ∧
      (loop read condition seen left source).2.1 = (loop twin condition seen left other).2.1 := by
  induction left generalizing source other seen with
  | zero => exact ⟨rfl, rfl⟩
  | succ left ih =>
    obtain ⟨hfirst, hlater⟩ := List.cons.inj h
    simp only [loop, hfirst]
    split
    · exact ⟨rfl, rfl⟩
    · exact ih _ hlater

/-- A wait comes to the same on a playback of what its source would show. -/
theorem poll_playback (condition : Condition) (budget : Budget) (patience : Nat) (source : σ) :
    let wait := poll read condition budget patience source
    let played := poll Playback.read condition budget patience
      ⟨(readings read (budget.reads patience) source).1⟩
    played.ending = wait.ending ∧ played.seen = wait.seen := by
  intro wait played
  have hlength : (readings read (budget.reads patience) source).1.length = budget.reads patience :=
    length_readings _
  have hshown := readings_playback (Nat.le_of_eq hlength.symm)
  rw [List.take_of_length_le (Nat.le_of_eq hlength)] at hshown
  obtain ⟨hheld, hseen⟩ := @loop_congr _ _ condition _ _ _ _ (budget.reads patience) #[] hshown
  simp only [wait, played, poll, hheld, hseen, and_self]

end BootLogo.Wait
