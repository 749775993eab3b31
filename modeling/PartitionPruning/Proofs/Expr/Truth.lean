import PartitionPruning.Proofs.Expr.Conjunction
import PartitionPruning.Proofs.Expr.Evaluation

/-! When comparisons, predicates and conjunctions have an answer, and which operand it comes
from. -/

namespace PartitionPruning

/-! ### Answers -/

namespace Answer

variable {α β : Type}

theorem bind_eq_known {a : Answer α} {f : α → Answer β} {y : β} :
    a.bind f = .known y ↔ ∃ x, a = .known x ∧ f x = .known y := by
  cases a <;> simp [bind]

theorem ofOption_eq_known {x : Option α} {y : α} : ofOption x = .known y ↔ x = some y := by
  cases x <;> simp [ofOption]

theorem ofExcept_eq_known {x : Except Failure α} {y : α} : ofExcept x = .known y ↔ x = .ok y := by
  match x with
  | .ok a => simp [ofExcept]
  | .error (.fault _) => simp [ofExcept]
  | .error .abort => simp [ofExcept]

end Answer

/-- A comparison is null with a null operand, and otherwise a truth value that the order of the two
operands gives. -/
theorem CompareOp.result?_eq_some {op : CompareOp} {a b v : Value} (h : op.result? a b = some v) :
    (a.isNull ∨ b.isNull) ∧ v = .null ∨ ¬(a.isNull ∨ b.isNull) ∧ ∃ x y o,
      a.coerceLike b = some x ∧ b.coerceLike a = some y ∧ x.compare y = some o ∧
        v = .bool (op.holds o) := by
  unfold result? at h
  split at h
  · exact Or.inl ⟨‹_›, (Option.some.inj h).symm⟩
  · obtain ⟨x, hx, h⟩ := Option.bind_eq_some_iff.mp h
    obtain ⟨y, hy, h⟩ := Option.bind_eq_some_iff.mp h
    obtain ⟨o, ho, h⟩ := Option.bind_eq_some_iff.mp h
    exact Or.inr ⟨‹_›, x, y, o, hx, hy, ho, (Option.some.inj h).symm⟩

namespace Node

variable {row : Row} {op : ConjunctionOp} {n : Node} {ns : List Node} {v : Value}

/-! ### Predicates -/

theorem satisfied_of_eval {b : Bool} (h : n.eval row = .known (.bool b)) :
    n.satisfied row = .known b := by
  rw [satisfied, h]
  rfl

theorem satisfied_eq_true : n.satisfied row = .known true ↔ n.eval row = .known (.bool true) := by
  cases h : n.eval row with
  | known v => cases v <;> simp [satisfied, h, Answer.bind]
  | unknown => simp [satisfied, h, Answer.bind]
  | aborted => simp [satisfied, h, Answer.bind]

/-- Null counts as false. -/
theorem satisfied_eq_false : n.satisfied row = .known false ↔
    n.eval row = .known (.bool false) ∨ n.eval row = .known .null := by
  cases h : n.eval row with
  | known v => cases v <;> simp [satisfied, h, Answer.bind]
  | unknown => simp [satisfied, h, Answer.bind]
  | aborted => simp [satisfied, h, Answer.bind]

theorem satisfied_eq_aborted : n.satisfied row = .aborted ↔ n.eval row = .aborted := by
  cases h : n.eval row with
  | known v => cases v <;> simp [satisfied, h, Answer.bind]
  | unknown => simp [satisfied, h, Answer.bind]
  | aborted => simp [satisfied, h, Answer.bind]

/-! ### Conjunctions -/

/-- A conjunction has the neutral answer only if all operands have it. -/
theorem evalAll_eq_neutral : evalAll row op ns = .known (.bool !op.dominant) ↔
    ∀ n ∈ ns, n.eval row = .known (.bool !op.dominant) := by
  induction ns with
  | nil => simp [evalAll]
  | cons n ns ih =>
    rw [List.forall_mem_cons, ← ih, evalAll]
    constructor
    · intro h
      rcases ConjunctionOp.join_eq_known h with ⟨hv, -⟩ | h | ⟨-, hv, -⟩
      · simp at hv
      · exact h
      · contradiction
    · rintro ⟨hn, hns⟩
      rw [hn, hns, ConjunctionOp.join_neutral]

/-- Any other answer of a conjunction is that of an operand. -/
theorem exists_of_evalAll (h : evalAll row op ns = .known v) (hv : v ≠ .bool !op.dominant) :
    ∃ n ∈ ns, n.eval row = .known v := by
  induction ns with
  | nil =>
    rw [evalAll, Answer.known.injEq] at h
    exact absurd h.symm hv
  | cons n ns ih =>
    have rest (hns : evalAll row op ns = .known v) : ∃ m ∈ n :: ns, m.eval row = .known v := by
      obtain ⟨m, hm, hvalue⟩ := ih hns
      exact ⟨m, List.mem_cons_of_mem _ hm, hvalue⟩
    rcases ConjunctionOp.join_eq_known h with ⟨-, hn | ⟨-, hns⟩⟩ | ⟨-, hns⟩ | ⟨hn, rfl, -⟩
    · exact ⟨n, List.mem_cons_self, hn⟩
    · exact rest hns
    · exact rest hns
    · exact ⟨n, List.mem_cons_self, hn⟩

/-- The known answers of a conjunction: dominant, as one operand is; neutral, as all are; or null,
as one is. -/
theorem evalAll_eq_known (h : evalAll row op ns = .known v) :
    (v = .bool op.dominant ∧ ∃ n ∈ ns, n.eval row = .known v) ∨
      (v = .bool !op.dominant ∧ ∀ n ∈ ns, n.eval row = .known v) ∨
      (v = .null ∧ ∃ n ∈ ns, n.eval row = .known v) := by
  have hvalues : v = .bool op.dominant ∨ v = .bool !op.dominant ∨ v = .null := by
    induction ns with
    | nil =>
      rw [evalAll, Answer.known.injEq] at h
      exact Or.inr (Or.inl h.symm)
    | cons n ns ih =>
      rcases ConjunctionOp.join_eq_known h with ⟨rfl, -⟩ | ⟨-, hns⟩ | ⟨-, rfl, -⟩
      · exact Or.inl rfl
      · exact ih hns
      · exact Or.inr (Or.inr rfl)
  rcases hvalues with rfl | rfl | rfl
  · exact Or.inl ⟨rfl, exists_of_evalAll h (by simp)⟩
  · exact Or.inr (Or.inl ⟨rfl, evalAll_eq_neutral.mp h⟩)
  · exact Or.inr (Or.inr ⟨rfl, exists_of_evalAll h (by simp)⟩)

theorem evalAll_eq_dominant (hn : n ∈ ns) (h : n.eval row = .known (.bool op.dominant))
    (hns : ∀ m ∈ ns, m.eval row ≠ .aborted) : evalAll row op ns = .known (.bool op.dominant) := by
  induction ns with
  | nil => simp at hn
  | cons m ns ih =>
    rw [evalAll]
    rcases List.mem_cons.mp hn with rfl | hn
    · rw [h, ConjunctionOp.join_dominant]
    · rw [ih hn fun k hk => hns k (List.mem_cons_of_mem _ hk)]
      exact ConjunctionOp.join_of_dominant_rest (hns m List.mem_cons_self)

end Node

end PartitionPruning
