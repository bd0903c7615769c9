import BootLogo.Hardware.Recorder

/-!
# What registers hold after some calls

* `last?`: what the last call that had some effect did; `lastWritten?`: the value last written to a
  register.
* `registerAfter`: what the register holds. One that was never written holds zero, which is also what
  a `Recorder` answers (`Recorder.config_eq`).
-/

namespace BootLogo

/-- The value that a call writes to a register, if it does. -/
def Call.written? (register : Register) : Call → Option UInt32
  | .write target value => if target = register then some value else none
  | _ => none

/-- The last effect that some calls had. -/
def last? (effect : Call → Option UInt32) (calls : List Call) : Option UInt32 :=
  calls.reverse.findSome? effect

def lastWritten? (register : Register) (calls : List Call) : Option UInt32 :=
  calls.reverse.findSome? (Call.written? register)

def registerAfter (register : Register) (calls : List Call) : UInt32 :=
  (lastWritten? register calls).getD 0

variable {register : Register} {effect : Call → Option UInt32} {earlier later calls : List Call}

theorem last?_append :
    last? effect (earlier ++ later) = (last? effect later).or (last? effect earlier) := by
  rw [last?, List.reverse_append, List.findSome?_append]
  rfl

theorem last?_cons (call : Call) :
    last? effect (call :: calls) = (last? effect calls).or (effect call) := by
  have hone : last? effect [call] = effect call := by
    rw [last?, List.reverse_singleton, List.findSome?_singleton]
  rw [← List.singleton_append, last?_append, hone]

@[simp] theorem lastWritten?_nil : lastWritten? register [] = none := rfl

theorem lastWritten?_append :
    lastWritten? register (earlier ++ later) =
      (lastWritten? register later).or (lastWritten? register earlier) :=
  last?_append

theorem lastWritten?_cons (call : Call) :
    lastWritten? register (call :: calls) =
      (lastWritten? register calls).or (call.written? register) :=
  last?_cons call

theorem lastWritten?_eq_none_iff :
    lastWritten? register calls = none ↔ ∀ call ∈ calls, call.written? register = none := by
  rw [lastWritten?, List.findSome?_eq_none_iff]
  simp only [List.mem_reverse]

theorem mem_of_lastWritten? {value : UInt32} (h : lastWritten? register calls = some value) :
    .write register value ∈ calls := by
  obtain ⟨call, hcall, hwritten⟩ := List.exists_of_findSome?_eq_some h
  cases call with
  | write target other =>
    rw [Call.written?, Option.ite_none_right_eq_some, Option.some.injEq] at hwritten
    rw [← hwritten.1, ← hwritten.2]
    exact List.mem_reverse.1 hcall
  | enable signals => cases hwritten
  | disable signals => cases hwritten
  | palette layer words => cases hwritten
  | taps axis table => cases hwritten

theorem lastWritten?_flatMap_eq_none {α : Type} {steps : List α} {body : α → List Call}
    (h : ∀ step ∈ steps, lastWritten? register (body step) = none) :
    lastWritten? register (steps.flatMap body) = none := by
  rw [lastWritten?_eq_none_iff]
  intro call hcall
  obtain ⟨step, hstep, hcall⟩ := List.mem_flatMap.1 hcall
  exact lastWritten?_eq_none_iff.1 (h step hstep) call hcall

theorem lastWritten?_ite {condition : Prop} [Decidable condition] :
    lastWritten? register (if condition then calls else []) =
      if condition then lastWritten? register calls else none := by
  split <;> rfl

theorem registerAfter_append :
    registerAfter register (earlier ++ later) =
      (lastWritten? register later).getD (registerAfter register earlier) := by
  rw [registerAfter, registerAfter, lastWritten?_append]
  cases lastWritten? register later <;> rfl

theorem Recorder.config_eq (recorder : Recorder) :
    Recorder.hardware.config register recorder = registerAfter register recorder.calls := by
  have hpast : recorder.calls.reverse = recorder.past := List.reverse_reverse recorder.past
  rw [registerAfter, lastWritten?, hpast]
  change (recorder.written? register).getD 0 = _
  rw [Recorder.written?]
  congr 2

end BootLogo
