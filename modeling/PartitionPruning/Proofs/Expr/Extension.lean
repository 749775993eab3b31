import PartitionPruning.Proofs.Expr.Build
import PartitionPruning.Proofs.Expr.Conjunction
import PartitionPruning.Proofs.Expr.Scale

/-! Evaluation on a row and on one with more columns. An answer that is known on the smaller row
stays, since columns that a row lacks only make answers unknown. -/

namespace PartitionPruning

/-- The row has all columns of another one, with the same values. -/
def Row.Extends (full row : Row) : Prop :=
  ∀ name v, Fields.get? row name = some v → Fields.get? full name = some v

theorem Row.extends_append (row more : Row) : Row.Extends (row ++ more) row := by
  intro name v hv
  induction row with
  | nil => contradiction
  | cons column row ih =>
    simp only [Fields.get?, List.cons_append] at hv ⊢
    split at hv
    · rwa [if_pos ‹_›]
    · rw [if_neg ‹_›]
      exact ih hv

namespace Answer

/-- If the first answer is known, the second one is the same, or there is none. -/
def KeptIn {α : Type} (a b : Answer α) : Prop := ∀ v, a = .known v → b = .known v ∨ b = .aborted

variable {α β : Type}

theorem KeptIn.refl (a : Answer α) : a.KeptIn a := fun _ h => Or.inl h

theorem KeptIn.bind {a b : Answer α} {f g : α → Answer β} (h : a.KeptIn b)
    (hfg : ∀ v, (f v).KeptIn (g v)) : (a.bind f).KeptIn (b.bind g) := by
  intro w hw
  cases a with
  | known v =>
    rcases h v rfl with rfl | rfl
    · exact hfg v w hw
    · exact Or.inr rfl
  | unknown => contradiction
  | aborted => contradiction

end Answer

theorem ConjunctionOp.join_keptIn {op : ConjunctionOp} {a b x y : Answer Value} (hab : a.KeptIn b)
    (hxy : x.KeptIn y) : (op.join a x).KeptIn (op.join b y) := by
  intro v hv
  by_cases hb : b = .aborted
  · exact Or.inr (by rw [hb, join_aborted])
  have hfirst : ∀ w, a = .known w → b = .known w := fun w hw => (hab w hw).resolve_right hb
  -- The cases are those of the operand that the known answer comes from.
  rcases join_eq_known hv with ⟨rfl, ha | ⟨-, hx⟩⟩ | ⟨ha, hx⟩ | ⟨ha, rfl, hx⟩
  · rw [hfirst _ ha, join_dominant]
    exact Or.inl rfl
  · rcases hxy _ hx with rfl | rfl
    · exact Or.inl (join_of_dominant_rest hb)
    · exact join_rest_aborted
  · rw [hfirst _ ha, join_neutral]
    exact hxy _ hx
  · rw [hfirst _ ha]
    by_cases hy : y = .aborted
    · rw [hy]
      exact Or.inr rfl
    · refine Or.inl (join_null ?_)
      rcases hx with hx | hx
      · exact Or.inl ((hxy _ hx).resolve_right hy)
      · exact Or.inr ((hxy _ hx).resolve_right hy)

namespace Expr

variable {row full : Row}

mutual

theorem eval_keptIn (h : full.Extends row) : (e : Expr) → (eval row e).KeptIn (eval full e)
  | constant n => by
    rw [eval, eval]
    exact .refl _
  | column name => by
    intro v hv
    rw [eval] at hv ⊢
    cases hget : Fields.get? row name with
    | none => simp [hget, Answer.ofOption] at hv
    | some w => rw [h name w hget]; exact Or.inl (hget ▸ hv)
  | cast operand type => by
    rw [eval, eval]
    exact (eval_keptIn h operand).bind fun _ => .refl _
  | comparison op left right => by
    rw [eval, eval]
    exact (eval_keptIn h left).bind fun _ => (eval_keptIn h right).bind fun _ => .refl _
  | conjunction op children => by
    rw [eval, eval]
    exact evalAll_keptIn h op children
  | case arms otherwise => by
    rw [eval, eval]
    exact evalArms_keptIn h (evalOtherwise_keptIn h otherwise) arms
  | unary op operand => by
    rw [eval, eval]
    exact (eval_keptIn h operand).bind fun _ => .refl _
  | unknown => by
    rw [eval, eval]
    exact .refl _

theorem evalAll_keptIn (h : full.Extends row) (op : ConjunctionOp) :
    (es : List Expr) → (evalAll row op es).KeptIn (evalAll full op es)
  | [] => by
    rw [evalAll, evalAll]
    exact .refl _
  | e :: es => by
    rw [evalAll, evalAll]
    exact ConjunctionOp.join_keptIn (eval_keptIn h e) (evalAll_keptIn h op es)

theorem evalArms_keptIn (h : full.Extends row) {a b : Answer Value} (hab : a.KeptIn b) :
    (arms : List (Expr × Expr)) → (evalArms row a arms).KeptIn (evalArms full b arms)
  | [] => by
    rw [evalArms, evalArms]
    exact hab
  | (condition, result) :: arms => by
    rw [evalArms, evalArms]
    refine (eval_keptIn h condition).bind fun v => ?_
    split
    · exact eval_keptIn h result
    · exact evalArms_keptIn h hab arms
    · exact evalArms_keptIn h hab arms
    · exact .refl _

theorem evalOtherwise_keptIn (h : full.Extends row) :
    (otherwise : Option Expr) → (evalOtherwise row otherwise).KeptIn (evalOtherwise full otherwise)
  | none => by
    rw [evalOtherwise, evalOtherwise]
    exact .refl _
  | some e => by
    rw [evalOtherwise, evalOtherwise]
    exact eval_keptIn h e

end

end Expr

/-- A known value of a node is its value on every larger row too, unless that has no answer. -/
theorem Node.eval_keptIn {row full : Row} (h : full.Extends row) (n : Node) :
    (n.eval row).KeptIn (n.eval full) :=
  Expr.eval_keptIn h (Expr.ofNode n)

/-- A known value of a node, null included, is its value on every row with more columns. -/
theorem Node.eval_eq_of_extends {n : Node} (hfit : n.ScalesFit) {row full : Row}
    (h : full.Extends row) {v : Value} (hv : n.eval row = .known v) : n.eval full = .known v := by
  rcases n.eval_keptIn h v hv with hkept | hended
  · exact hkept
  · exact absurd hended (hfit.eval_ne_aborted full)

/-- `(p IS NULL OR c < '5') AND p = '50'` -/
def nullOrSmall : Node :=
  Build.conjunction .and
    [Build.conjunction .or [Build.isNull (Build.reference ["p"]),
      Build.comparison .lessThan (Build.reference ["c"]) (Build.varchar "5")],
     Build.comparison .equal (Build.reference ["p"]) (Build.varchar "50")]

/-- With a null for `p` the whole is null, whatever `c` is. -/
theorem Node.eval_eq_of_extends_null :
    nullOrSmall.ScalesFit ∧ Row.Extends [("p", .null), ("c", .int 7)] [("p", .null)] ∧
      nullOrSmall.eval [("p", .null)] = .known .null ∧
      nullOrSmall.eval [("p", .null), ("c", .int 7)] = .known .null := by
  have hfit : nullOrSmall.ScalesFit := by decide +kernel
  have hextends := Row.extends_append [("p", .null)] [("c", .int 7)]
  have hnull : nullOrSmall.eval [("p", .null)] = .known .null := by
    simp only [nullOrSmall, Build.eval_conjunction, evalAll, Build.eval_isNull,
      Build.eval_comparison, Build.eval_reference, Build.eval_varchar]
    decide
  exact ⟨hfit, hextends, hnull, eval_eq_of_extends hfit hextends hnull⟩

end PartitionPruning
