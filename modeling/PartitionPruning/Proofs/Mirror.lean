import PartitionPruning.Proofs.Expr.Leaves
import PartitionPruning.Proofs.Expr.Logic
import PartitionPruning.Proofs.Expr.Tag
import PartitionPruning.Proofs.Statistics.Bound
import PartitionPruning.Statistics.Query

/-! Comparisons written another way: with their operands swapped, and as the negation of the
opposite comparison. They have the same value, and the statistics know the swapped comparison as
the same bound. -/

namespace PartitionPruning

/-! ### Values -/

namespace CompareOp

/-- The operator that holds where this one does not. -/
def complement : CompareOp → CompareOp
  | equal => notEqual
  | notEqual => equal
  | lessThan => greaterOrEqual
  | greaterThan => lessOrEqual
  | lessOrEqual => greaterThan
  | greaterOrEqual => lessThan

theorem swap_swap (op : CompareOp) : op.swap.swap = op := by
  cases op <;> rfl

theorem holds_complement (op : CompareOp) (o : Ordering) : op.complement.holds o = !op.holds o := by
  cases op <;> cases o <;> rfl

/-- A comparison that has no answer has none with the opposite operator, and a null stays null. -/
theorem result?_complement (op : CompareOp) (a b : Value) :
    op.complement.result? a b = (op.result? a b).bind UnaryOp.not.result? := by
  unfold result?
  split
  · rfl
  · cases a.coerceLike b with
    | none => rfl
    | some x =>
      cases b.coerceLike a with
      | none => rfl
      | some y =>
        show (do let o ← x.compare y; _) = (do let o ← x.compare y; _ : Option Value).bind _
        cases x.compare y with
        | none => rfl
        | some o => exact congrArg (fun b => some (Value.bool b)) (holds_complement op o)

end CompareOp

namespace Answer

variable {α β γ : Type}

theorem bind_assoc (a : Answer α) (f : α → Answer β) (g : β → Answer γ) :
    (a.bind f).bind g = a.bind fun x => (f x).bind g := by
  cases a <;> rfl

theorem ofOption_bind (x : Option α) (f : α → Option β) :
    (ofOption x).bind (fun v => ofOption (f v)) = ofOption (x.bind f) := by
  cases x <;> rfl

/-- Where both answers come to an end, either may be asked for first. -/
theorem bind_comm {a : Answer α} {b : Answer β} (ha : a ≠ .aborted) (hb : b ≠ .aborted)
    (f : α → β → Answer γ) :
    (a.bind fun x => b.bind fun y => f x y) = b.bind fun y => a.bind fun x => f x y := by
  cases a <;> cases b <;> simp_all [bind]

end Answer

namespace Build

variable {row : Row} {left right : Node}

theorem eval_comparison_swap (op : CompareOp) (hleft : left.eval row ≠ .aborted)
    (hright : right.eval row ≠ .aborted) :
    (comparison op.swap right left).eval row = (comparison op left right).eval row := by
  rw [eval_comparison, eval_comparison, Answer.bind_comm hright hleft]
  simp only [CompareOp.result?_swap]

theorem eval_negation_comparison (op : CompareOp) :
    (negation (comparison op left right)).eval row =
      (comparison op.complement left right).eval row := by
  rw [eval_negation, eval_comparison, eval_comparison]
  simp only [Answer.bind_assoc, Answer.ofOption_bind, CompareOp.result?_complement]

end Build

/-! ### Bounds -/

theorem append_eq_singleton_comm {α : Type} {xs ys : List α} {x : α} :
    xs ++ ys = [x] ↔ ys ++ xs = [x] := by
  rw [List.append_eq_singleton_iff, List.append_eq_singleton_iff, or_comm, and_comm,
    and_comm (a := xs = [])]

namespace Bound

variable {op : CompareOp} {left right : Node}

theorem ofComparison_comparison : ofComparison (Build.comparison op left right) =
    if left.isReference && right.isConstant then ofOp op
    else if left.isConstant && right.isReference then ofOp op.swap
    else neither := by
  rw [ofComparison, Build.kind_comparison]
  rfl

theorem ofComparison_swap : ofComparison (Build.comparison op.swap right left) =
    ofComparison (Build.comparison op left right) := by
  rw [ofComparison_comparison, ofComparison_comparison, CompareOp.swap_swap,
    Bool.and_comm right.isConstant, Bool.and_comm right.isReference]
  cases hleft : left.isConstant with
  | true =>
    rw [Node.isReference_eq_false_of_isConstant hleft]
    simp
  | false => simp

end Bound

namespace StatsMapping

variable {m : StatsMapping}

theorem boundPredicate?_eq_none {n : Node}
    (h : ∀ reference literal, n.references = [reference] → n.literals ≠ [literal]) :
    m.boundPredicate? n = .ok none := by
  unfold boundPredicate?
  split
  · rfl
  · split
    · rename_i reference literal href hlit
      exact absurd hlit (h reference literal href)
    · rfl

/-- Besides the bound of a comparison only its leaves count, and only where there is one column and
one constant. -/
theorem boundPredicate?_congr {a b : Node} (ha : a.isComparison = true) (hb : b.isComparison = true)
    (href : ∀ reference, a.references = [reference] ↔ b.references = [reference])
    (hlit : ∀ literal, a.literals = [literal] ↔ b.literals = [literal])
    (hbound : Bound.ofComparison a = Bound.ofComparison b) :
    m.boundPredicate? a = m.boundPredicate? b := by
  by_cases h : ∃ reference literal, a.references = [reference] ∧ a.literals = [literal]
  · obtain ⟨reference, literal, hra, hla⟩ := h
    simp only [boundPredicate?, ha, hb, hra, hla, (href _).mp hra, (hlit _).mp hla, hbound]
  · -- Neither of the two has a bound then.
    simp only [not_exists, not_and] at h
    rw [boundPredicate?_eq_none h, boundPredicate?_eq_none fun reference literal hr hl =>
      h reference literal ((href _).mpr hr) ((hlit _).mpr hl)]

theorem restateComparison_swap (op : CompareOp) (left right : Node) :
    m.restateComparison (Build.comparison op.swap right left) =
      m.restateComparison (Build.comparison op left right) := by
  have hleaves {p : Node → Bool} (hp : Node.IsLeafTest p) (x : Node) :
      (Build.comparison op.swap right left).find p = [x] ↔
        (Build.comparison op left right).find p = [x] := by
    rw [Build.find_comparison hp, Build.find_comparison hp]
    exact append_eq_singleton_comm
  have hsame : m.boundPredicate? (Build.comparison op.swap right left) =
      m.boundPredicate? (Build.comparison op left right) := by
    apply boundPredicate?_congr
    · exact Node.isComparison_of_kind (Build.kind_comparison _ _ _)
    · exact Node.isComparison_of_kind (Build.kind_comparison _ _ _)
    · exact hleaves Node.isLeafTest_isReference
    · exact hleaves Node.isLeafTest_isConstant
    · exact Bound.ofComparison_swap
  rw [restateComparison, restateComparison, hsame]

end StatsMapping

/-- A comparison, the one with its operands swapped and the negation of the opposite one have the
same value on every row, and the first two the same form on the statistics. -/
theorem comparison_mirrors (op : CompareOp) (row : Row) (m : StatsMapping) {left right : Node}
    (hleft : left.ScalesFit) (hright : right.ScalesFit) :
    (Build.comparison op left right).eval row = (Build.comparison op.swap right left).eval row ∧
      (Build.negation (Build.comparison op left right)).eval row =
        (Build.comparison op.complement left right).eval row ∧
      m.restateComparison (Build.comparison op left right) =
        m.restateComparison (Build.comparison op.swap right left) := by
  refine ⟨?_, ?_, ?_⟩
  · have hleftEnds := hleft.eval_ne_aborted row
    have hrightEnds := hright.eval_ne_aborted row
    exact (Build.eval_comparison_swap op hleftEnds hrightEnds).symm
  · exact Build.eval_negation_comparison op
  · exact (m.restateComparison_swap op left right).symm

def doubleMapping : StatsMapping := ⟨"t_stats", [("c", ⟨"min_c", "max_c", .scalar .double⟩)]⟩

def underFive : Node := Build.comparison .lessThan (Build.reference ["c"]) (Build.varchar "5")

def fiveOver : Node := Build.comparison .greaterThan (Build.varchar "5") (Build.reference ["c"])

/-- A column that is no number has no order with a text, and the negation has no answer either. -/
theorem comparison_mirrors_nan :
    (Build.reference ["c"]).ScalesFit ∧ (Build.varchar "5").ScalesFit ∧
      underFive.eval [("c", .float .nan)] = fiveOver.eval [("c", .float .nan)] ∧
      (Build.negation underFive).eval [("c", .float .nan)] =
        (Build.comparison .greaterOrEqual (Build.reference ["c"]) (Build.varchar "5")).eval
          [("c", .float .nan)] ∧
      doubleMapping.restateComparison underFive = doubleMapping.restateComparison fiveOver := by
  have hleft : (Build.reference ["c"]).ScalesFit := by decide +kernel
  have hright : (Build.varchar "5").ScalesFit := by decide +kernel
  exact ⟨hleft, hright,
    comparison_mirrors .lessThan [("c", .float .nan)] doubleMapping hleft hright⟩

end PartitionPruning
