/-! Quotients of natural numbers rounded to a nearest integer. -/

namespace PartitionPruning

/-- Where a quotient halfway between two integers goes. -/
inductive Tie where
  | toEven
  | up
  deriving DecidableEq, Repr

def roundDiv (tie : Tie) (num den : Nat) : Nat :=
  let below := num / den
  let twice := 2 * (num % den)
  if den < twice ∨ (den = twice ∧ (tie = .up ∨ below % 2 = 1)) then below + 1 else below

theorem roundDiv_one (tie : Tie) (n : Nat) : roundDiv tie n 1 = n := by
  simp [roundDiv, Nat.mod_one]

/-- A multiple of the divisor is not moved. -/
theorem roundDiv_mul (tie : Tie) (n den : Nat) (h : 0 < den) :
    roundDiv tie (n * den) den = n := by
  have : ¬den = 0 := by omega
  simp [roundDiv, Nat.mul_div_cancel _ h, this]

theorem div_le_roundDiv (tie : Tie) (num den : Nat) : num / den ≤ roundDiv tie num den := by
  unfold roundDiv; dsimp only; split <;> omega

theorem roundDiv_le (tie : Tie) (num den : Nat) : roundDiv tie num den ≤ num / den + 1 := by
  unfold roundDiv; dsimp only; split <;> omega

end PartitionPruning
