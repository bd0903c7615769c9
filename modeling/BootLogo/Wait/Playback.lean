import BootLogo.Wait

/-!
# What a wait may see

* `readings`: the next status readings of a source, and what is read from afterwards; `statuses`: all that it
  would ever show.
* `Playback`: a source that shows the values of a list, the last one again and again. Every source is played
  back so far as it is read (`readings_playback`).
-/

namespace BootLogo

/-- The status values still to come. -/
structure Playback where
  values : List Signals

/-- The next value; without any, no signal is ever set. -/
def Playback.read : Playback → Signals × Playback
  | ⟨[]⟩ => (Signals.empty, ⟨[]⟩)
  | ⟨[last]⟩ => (last, ⟨[last]⟩)
  | ⟨value :: later⟩ => (value, ⟨later⟩)

namespace Wait

variable {σ : Type} {read : σ → Signals × σ} {source : σ}

/-- The next `count` readings, and what is read from afterwards. -/
def readings (read : σ → Signals × σ) : Nat → σ → List Signals × σ
  | 0, source => ([], source)
  | count + 1, source =>
    let rest := readings read count (read source).2
    ((read source).1 :: rest.1, rest.2)

/-- The status that is read after so many others. -/
def statuses (read : σ → Signals × σ) (source : σ) (index : Nat) : Signals :=
  (read (readings read index source).2).1

theorem length_readings (count : Nat) : (readings read count source).1.length = count := by
  induction count generalizing source with
  | zero => rfl
  | succ count ih => simp only [readings, List.length_cons, ih]

theorem readings_succ (count : Nat) : readings read (count + 1) source =
    ((readings read count source).1 ++ [(read (readings read count source).2).1],
      (read (readings read count source).2).2) := by
  induction count generalizing source with
  | zero => rfl
  | succ count ih =>
    rw [readings, ih]
    rfl

theorem readings_eq_map (count : Nat) :
    (readings read count source).1 = (List.range count).map (statuses read source) := by
  induction count with
  | zero => rfl
  | succ count ih =>
    rw [readings_succ, List.range_succ, List.map_append, ih]
    rfl

theorem readings_of_invariant {good : σ → Prop} {shown : Signals → Prop}
    (h : ∀ source, good source → shown (read source).1 ∧ good (read source).2) (count : Nat)
    (hsource : good source) :
    (∀ status ∈ (readings read count source).1, shown status) ∧
      good (readings read count source).2 := by
  induction count generalizing source with
  | zero => exact ⟨fun status hstatus => absurd hstatus List.not_mem_nil, hsource⟩
  | succ count ih =>
    obtain ⟨hshown, hgood⟩ := h source hsource
    obtain ⟨hrest, hlast⟩ := ih hgood
    exact ⟨List.forall_mem_cons.2 ⟨hshown, hrest⟩, hlast⟩

theorem readings_playback {values : List Signals} {count : Nat} (h : count ≤ values.length) :
    (readings Playback.read count ⟨values⟩).1 = values.take count := by
  induction count generalizing values with
  | zero => rfl
  | succ count ih =>
    match values with
    | [] => exact absurd h (Nat.not_succ_le_zero count)
    | [last] =>
      obtain rfl : count = 0 := Nat.le_zero.1 (Nat.le_of_succ_le_succ h)
      rfl
    | value :: next :: later =>
      exact congrArg (value :: ·) (ih (Nat.le_of_succ_le_succ h))

end Wait

end BootLogo
