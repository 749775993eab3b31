import PartitionPruning.Expr.Evaluate

/-! The answer of a conjunction, operand by operand: a dominant operand decides it, a neutral one
leaves it to the others, and a null leaves it at most null. -/

namespace PartitionPruning

namespace ConjunctionOp

variable {op : ConjunctionOp} {first rest : Answer Value} {v : Value}

@[simp] theorem join_aborted : op.join .aborted rest = .aborted := rfl

@[simp] theorem join_dominant : op.join (.known (.bool op.dominant)) rest =
    .known (.bool op.dominant) := by
  simp [join]

@[simp] theorem join_neutral : op.join (.known (.bool !op.dominant)) rest = rest := by
  simp [join]

theorem join_of_dominant_rest (h : first ≠ .aborted) :
    op.join first (.known (.bool op.dominant)) = .known (.bool op.dominant) := by
  unfold join
  split <;> simp_all

/-- If the others have no answer, only the first operand can decide. -/
theorem join_rest_aborted : op.join first .aborted = .known (.bool op.dominant) ∨
    op.join first .aborted = .aborted := by
  unfold join
  split
  · exact Or.inr rfl
  · split <;> simp_all
  all_goals simp_all

/-- A null among neutral operands stays. -/
theorem join_null (h : rest = .known .null ∨ rest = .known (.bool !op.dominant)) :
    op.join (.known .null) rest = .known .null := by
  rcases h with rfl | rfl <;> simp [join, undecided]

theorem undecided_eq_known (h : undecided first = .known v) : first = .known .null ∧ v = .null := by
  unfold undecided at h
  split at h <;> simp_all

/-- A known answer is that of a deciding operand, or that of the others after a neutral one, or the
null of a first operand that the others leave undecided. -/
theorem join_eq_known (h : op.join first rest = .known v) :
    (v = .bool op.dominant ∧ (first = .known v ∨ first ≠ .aborted ∧ rest = .known v)) ∨
      (first = .known (.bool !op.dominant) ∧ rest = .known v) ∨
      (first = .known .null ∧ v = .null ∧
        (rest = .known .null ∨ rest = .known (.bool !op.dominant))) := by
  have eq_not {b : Bool} (hb : ¬b = op.dominant) : b = !op.dominant := by
    cases b <;> cases hd : op.dominant <;> simp_all
  unfold join at h
  split at h
  · contradiction
  · rename_i b
    split at h
    · rename_i hb
      subst hb
      obtain rfl : Value.bool op.dominant = v := by simpa using h
      exact Or.inl ⟨rfl, Or.inl rfl⟩
    · rename_i hb
      exact Or.inr (Or.inl ⟨by rw [eq_not hb], h⟩)
  · contradiction
  · rename_i b _ _
    split at h
    · rename_i hb
      subst hb
      obtain rfl : Value.bool op.dominant = v := by simpa using h
      exact Or.inl ⟨rfl, Or.inr ⟨‹_›, rfl⟩⟩
    · rename_i hb
      obtain ⟨hnull, hv⟩ := undecided_eq_known h
      exact Or.inr (Or.inr ⟨hnull, hv, Or.inr (by rw [eq_not hb])⟩)
  · obtain ⟨hnull, hv⟩ := undecided_eq_known h
    exact Or.inr (Or.inr ⟨hnull, hv, Or.inl rfl⟩)
  · contradiction

end ConjunctionOp

end PartitionPruning
