/-!
# Machine words

The computations of the library count in numbers without a limit. To compare one of them with the same
computation in machine words, every number of the latter is checked as it arises: `Word.unsigned` and
`Word.signed` go on with a number that is in its word, and hand any other to the monad that they are used
in. A proof that nothing overflows removes the checks one by one: `unsigned_eq` and `signed_eq` say which
checks are passed, and `bind_eq` goes on behind one.
-/

namespace BootLogo.Word

/-- Computations that end at a number outside its word. -/
class Overflows (m : Type → Type) where
  /-- What a computation comes to if its word holds the numbers below `limit` and this is not one. -/
  overflow {α : Type} (limit : Nat) (value : Int) : m α

instance : Overflows Option where
  overflow _ _ := none

variable {m : Type → Type} [Monad m] {limit : Nat} {α β : Type}

/-- A number in a word of the numbers below `limit`. -/
def unsigned [Overflows m] (limit : Nat) (value : Int) : m Nat :=
  if 0 ≤ value ∧ value < limit then pure value.toNat else Overflows.overflow limit value

/-- A number in a word of the numbers below `limit` and of those as far below zero. -/
def signed [Overflows m] (limit : Nat) (value : Int) : m Int :=
  if -limit ≤ value ∧ value < limit then pure value else Overflows.overflow limit value

theorem unsigned_eq [Overflows m] {value : Nat} (h : value < limit) :
    (unsigned limit value : m Nat) = pure value := by
  rw [unsigned, if_pos ⟨Int.natCast_nonneg value, Int.ofNat_lt.2 h⟩, Int.toNat_natCast]

theorem signed_eq [Overflows m] {value : Int} (h : -limit ≤ value ∧ value < limit) :
    (signed limit value : m Int) = pure value :=
  if_pos h

theorem bind_eq [LawfulMonad m] {checked : m β} {value : β} (h : checked = pure value) (next : β → m α) :
    (checked >>= next) = next value := by
  rw [h, pure_bind]

end BootLogo.Word
