import PartitionPruning.Proofs.Expr.Leaves
import PartitionPruning.Proofs.Statistics.Restated
import PartitionPruning.Proofs.Tree.Search

/-! Statistics of a column of integers. For the comparisons that equal values satisfy the predicate
on the statistics is exact: it is true if a value between the extremes satisfies the comparison, and
false if none does. -/

namespace PartitionPruning

open PartitionPruning.Bound

/-! ### Comparisons of integers -/

namespace CompareOp

variable {op : CompareOp}

theorem result?_int (op : CompareOp) (a b : Int64) :
    op.result? (.int a) (.int b) = some (.bool (op.holds (Ord.compare a.toInt b.toInt))) := rfl

theorem holds_lessOrEqual_iff {a b : Int64} :
    lessOrEqual.holds (Ord.compare a.toInt b.toInt) = true ↔ a ≤ b := by
  rw [Int64.le_iff_toInt_le]
  exact Int.isLE_compare

theorem holds_greaterOrEqual_iff {a b : Int64} :
    greaterOrEqual.holds (Ord.compare a.toInt b.toInt) = true ↔ b ≤ a := by
  rw [Int64.le_iff_toInt_le]
  exact Int.isGE_compare

theorem holds_equal_iff {a b : Int64} :
    equal.holds (Ord.compare a.toInt b.toInt) = true ↔ a = b := by
  rw [← Int64.toInt_inj]
  simp [holds]

/-- The operators that equal values satisfy. -/
def isReflexive (op : CompareOp) : Bool := op.holds .eq

theorem isReflexive_iff : op.isReflexive = true ↔ op ∈ [equal, lessOrEqual, greaterOrEqual] := by
  cases op <;> decide

theorem isReflexive_swap (op : CompareOp) : op.swap.isReflexive = op.isReflexive := by
  cases op <;> rfl

/-- Such a comparison is a bound. -/
theorem ofOp_ne_neither (h : op.isReflexive = true) : ofOp op ≠ .neither := by
  cases op <;> first | decide | contradiction

/-- The constant lies on the right side of the extremes if a value between them satisfies the
comparison. Such a value is the constant itself, or the extreme that the comparison favours. -/
theorem exists_between_iff {lo hi k : Int64} (hop : op.isReflexive = true) (hle : lo ≤ hi) :
    (∃ v, lo ≤ v ∧ v ≤ hi ∧ op.holds (Ord.compare v.toInt k.toInt) = true) ↔
      ((ofOp op).isUpper = true → lo ≤ k) ∧ ((ofOp op).isLower = true → k ≤ hi) := by
  cases op with
  | equal =>
    simp only [holds_equal_iff, ofOp, isUpper, isLower]
    constructor
    · rintro ⟨v, hlo, hhi, rfl⟩
      exact ⟨fun _ => hlo, fun _ => hhi⟩
    · intro h
      exact ⟨k, h.1 rfl, h.2 rfl, rfl⟩
  | lessOrEqual =>
    simp only [holds_lessOrEqual_iff, ofOp, isUpper, isLower]
    constructor
    · rintro ⟨v, hlo, -, hv⟩
      exact ⟨fun _ => Int64.le_trans hlo hv, by simp⟩
    · intro h
      exact ⟨lo, Int64.le_refl lo, hle, h.1 rfl⟩
  | greaterOrEqual =>
    simp only [holds_greaterOrEqual_iff, ofOp, isUpper, isLower]
    constructor
    · rintro ⟨v, -, hhi, hv⟩
      exact ⟨by simp, fun _ => Int64.le_trans hv hhi⟩
    · intro h
      exact ⟨hi, hle, Int64.le_refl hi, h.2 rfl⟩
  | notEqual | lessThan | greaterThan => contradiction

end CompareOp

/-! ### Integer columns -/

/-- A comparison of a column and an integer constant, in either order. They are its only leaves. -/
structure Node.ComparesInt (n : Node) (op : CompareOp) (name : String) (k : Int64)
    (reference literal : Node) : Prop where
  kind : n.kind = .comparison op
  operands : n.field? "left" = some reference ∧ n.field? "right" = some literal ∨
    n.field? "left" = some literal ∧ n.field? "right" = some reference
  references : n.references = [reference]
  literals : n.literals = [literal]
  columnNames : reference.columnNames = .ok [name]
  ofConstant : Value.ofConstant literal = .ok (.int k)

/-- The statistics of a column of integers: its values in the file go from `lo` to `hi`. -/
structure StatsColumn.HasRange (column : StatsColumn) (stats : Row) (lo hi : Int64) : Prop where
  le : lo ≤ hi
  least : Fields.get? stats column.min = some (.int lo)
  greatest : Fields.get? stats column.max = some (.int hi)
  holdsLeast : column.type.HoldsInt lo
  holdsGreatest : column.type.HoldsInt hi

namespace Node.ComparesInt

variable {n reference literal : Node} {op : CompareOp} {name : String} {k : Int64}

theorem isReference (h : n.ComparesInt op name k reference literal) :
    reference.isReference = true := by
  have hmem : reference ∈ n.references := h.references ▸ List.mem_cons_self
  exact Node.of_mem_find hmem

theorem isConstant (h : n.ComparesInt op name k reference literal) :
    literal.isConstant = true := by
  have hmem : literal ∈ n.literals := h.literals ▸ List.mem_cons_self
  exact Node.of_mem_find hmem

theorem eval_literal (h : n.ComparesInt op name k reference literal) (row : Row) :
    literal.eval row = .known (.int k) :=
  Node.eval_of_isConstant h.isConstant h.ofConstant

/-- Of a value the comparison is true by the order of the value and the constant. -/
theorem exists_satisfied (h : n.ComparesInt op name k reference literal) :
    ∃ op', (op' = op ∨ op' = op.swap) ∧ ofComparison n = ofOp op' ∧
      ∀ v, n.satisfied [(name, .int v)] = .known (op'.holds (Ord.compare v.toInt k.toInt)) := by
  obtain ⟨op', hop, hbound, heval⟩ :=
    exists_eval_of_operands h.kind h.isReference h.isConstant h.operands
  refine ⟨op', hop, hbound, ?_⟩
  intro v
  have hreference : reference.eval [(name, .int v)] = .known (.int v) := by
    rw [Node.eval_of_isReference h.isReference h.columnNames]
    simp [Fields.get?, Answer.ofOption]
  apply Node.satisfied_of_eval
  rw [heval _ _ hreference, h.eval_literal, Answer.bind, CompareOp.result?_int]
  rfl

end Node.ComparesInt

/-- A constant of an integer type. -/
def intConstant (id : String) (k : Int64) : Node :=
  Build.valueConstant (Build.plainType id) (.number (.integer k.toInt (by
    have hlow := k.le_toInt
    have hhigh := k.toInt_lt
    simp only [leastInteger, integerBound]
    omega)))

theorem ofConstant_intConstant {id : String} {type : ScalarType} {bits : Nat}
    (hid : Fields.get? scalarIds id = some type) (hbits : (DataType.scalar type).bits? = some bits)
    (k : Int64) : Value.ofConstant (intConstant id k) = .ok (.int k) := by
  refine (Build.ofConstant_valueConstant hid Node.noConfusion).trans ?_
  cases type <;> first
    | contradiction
    | dsimp only [Value.ofPayload, Node.int64?, Number.toInt64?]
      rw [toInt64?_toInt]
      rfl

theorem isConstant_intConstant (id : String) (k : Int64) : (intConstant id k).isConstant = true := by
  simp [Node.isConstant, intConstant, Build.kind_valueConstant]

theorem references_intConstant (id : String) (k : Int64) : (intConstant id k).references = [] := by
  apply Build.find_valueConstant Node.isLeafTest_isReference
  · exact Build.find_plainType Node.isLeafTest_isReference id
  · exact Node.isReference_eq_false_of_isConstant (isConstant_intConstant id k)
  · rfl

theorem literals_intConstant (id : String) (k : Int64) :
    (intConstant id k).literals = [intConstant id k] :=
  Node.find_of_true (isConstant_intConstant id k)

/-- Every comparison of a column and an integer constant is of this form, in both orders. -/
theorem comparesInt_comparison {id : String} {type : ScalarType} {bits : Nat}
    (hid : Fields.get? scalarIds id = some type) (hbits : (DataType.scalar type).bits? = some bits)
    (op : CompareOp) (name : String) (k : Int64) :
    (Build.comparison op (Build.reference [name]) (intConstant id k)).ComparesInt op name k
        (Build.reference [name]) (intConstant id k) ∧
      (Build.comparison op (intConstant id k) (Build.reference [name])).ComparesInt op name k
        (Build.reference [name]) (intConstant id k) := by
  have hkind := Build.kind_comparison op
  have hvalue := ofConstant_intConstant hid hbits k
  constructor
  · refine ⟨hkind _ _, Or.inl ⟨rfl, rfl⟩, ?_, ?_, rfl, hvalue⟩
    · rw [Build.references_comparison, Build.references_reference, references_intConstant,
        List.append_nil]
    · rw [Build.literals_comparison, Build.literals_reference, literals_intConstant,
        List.nil_append]
  · refine ⟨hkind _ _, Or.inr ⟨rfl, rfl⟩, ?_, ?_, rfl, hvalue⟩
    · rw [Build.references_comparison, Build.references_reference, references_intConstant,
        List.nil_append]
    · rw [Build.literals_comparison, Build.literals_reference, literals_intConstant,
        List.append_nil]

namespace Bound

/-- The predicate on an extreme compares it with the constant as it is. -/
theorem exists_guarded_int (op : CompareOp) {extreme : String} {literal : Node} {type : DataType}
    {e k : Int64} {stats : Row} (hextreme : Fields.get? stats extreme = some (.int e))
    (hliteral : literal.eval stats = .known (.int k)) (he : type.HoldsInt e)
    (hk : type.HoldsInt k) :
    ∃ p, guarded op extreme literal type = .ok p ∧
      p.eval stats = .known (.bool (op.holds (Ord.compare e.toInt k.toInt))) := by
  obtain ⟨t, rfl, ht⟩ := exists_scalar he.isOf
  exact exists_guarded_of_cast ht hextreme rfl hliteral (Value.cast_of_holdsInt he)
    (Value.cast_of_holdsInt hk) (CompareOp.result?_int op e k)

end Bound

namespace StatsMapping

variable {m : StatsMapping} {n reference literal : Node} {op : CompareOp} {name : String}
  {column : StatsColumn} {k lo hi : Int64} {stats : Row}

/-- The predicate on the statistics is true if the constant lies on the right side of the extremes,
and false if not. -/
theorem exists_satisfied_restateComparison (h : n.ComparesInt op name k reference literal)
    (hbound : ofComparison n ≠ .neither) (hcolumn : m.get? name = some column)
    (hk : column.type.HoldsInt k) (hrange : column.HasRange stats lo hi) :
    ∃ b, (m.restateComparison n).satisfied stats = .known b ∧
      (b = true ↔ ((ofComparison n).isUpper = true → lo ≤ k) ∧
        ((ofComparison n).isLower = true → k ≤ hi)) := by
  have hupper := exists_guarded_int .lessOrEqual hrange.least (h.eval_literal stats)
    hrange.holdsLeast hk
  have hlower := exists_guarded_int .greaterOrEqual hrange.greatest (h.eval_literal stats)
    hrange.holdsGreatest hk
  have heval := eval_restateComparison hbound h.references h.literals h.columnNames hcolumn
    hupper hlower
  refine ⟨_, Node.satisfied_of_eval heval, ?_⟩
  rw [← CompareOp.holds_lessOrEqual_iff, ← CompareOp.holds_greaterOrEqual_iff]
  simp [Decidable.imp_iff_not_or]

/-- A file whose least and greatest values are right is kept if a value between them satisfies the
comparison, and pruned if none does. -/
theorem restateComparison_exact (h : n.ComparesInt op name k reference literal)
    (hop : op ∈ [.equal, .lessOrEqual, .greaterOrEqual]) (hcolumn : m.get? name = some column)
    (hk : column.type.HoldsInt k) (hrange : column.HasRange stats lo hi) :
    ∃ b, (m.restateComparison n).satisfied stats = .known b ∧
      (b = true ↔ ∃ v, lo ≤ v ∧ v ≤ hi ∧ n.satisfied [(name, .int v)] = .known true) := by
  obtain ⟨op', hside, hbound, hsatisfied⟩ := h.exists_satisfied
  have hreflexive : op'.isReflexive = true := by
    rcases hside with rfl | rfl
    · exact CompareOp.isReflexive_iff.mpr hop
    · rw [CompareOp.isReflexive_swap]
      exact CompareOp.isReflexive_iff.mpr hop
  have hne : ofComparison n ≠ .neither := by
    rw [hbound]
    exact CompareOp.ofOp_ne_neither hreflexive
  obtain ⟨b, hb, hiff⟩ := exists_satisfied_restateComparison h hne hcolumn hk hrange
  refine ⟨b, hb, ?_⟩
  rw [hiff, hbound, ← CompareOp.exists_between_iff hreflexive hrange.le]
  simp only [hsatisfied, Answer.known.injEq]

def smallIntColumn : StatsColumn := ⟨"min_c", "max_c", .scalar .smallInt⟩

def smallIntMapping : StatsMapping := ⟨"t_stats", [("c", smallIntColumn)]⟩

/-- `300 >= c` -/
def upToThreeHundred : Node :=
  Build.comparison .greaterOrEqual (intConstant "INTEGER" 300) (Build.reference ["c"])

def aboveThreeHundred : Row := [("min_c", .int 301), ("max_c", .int 400)]

/-- A file with values from 301 on is pruned, since all of them are above the constant. -/
theorem restateComparison_exact_smallInt :
    upToThreeHundred.ComparesInt .greaterOrEqual "c" 300 (Build.reference ["c"])
      (intConstant "INTEGER" 300) ∧
    smallIntMapping.get? "c" = some smallIntColumn ∧ smallIntColumn.type.HoldsInt 300 ∧
    smallIntColumn.HasRange aboveThreeHundred 301 400 ∧
    ∃ b, (smallIntMapping.restateComparison upToThreeHundred).satisfied aboveThreeHundred =
        .known b ∧
      (b = true ↔ ∃ v, 301 ≤ v ∧ v ≤ 400 ∧
        upToThreeHundred.satisfied [("c", .int v)] = .known true) := by
  have hid : Fields.get? scalarIds "INTEGER" = some .integer := rfl
  have hcompares := (comparesInt_comparison hid rfl .greaterOrEqual "c" 300).2
  have hk : smallIntColumn.type.HoldsInt 300 := ⟨16, rfl, by decide⟩
  have hrange : smallIntColumn.HasRange aboveThreeHundred 301 400 :=
    ⟨by decide, rfl, rfl, ⟨16, rfl, by decide⟩, ⟨16, rfl, by decide⟩⟩
  exact ⟨hcompares, rfl, hk, hrange,
    restateComparison_exact hcompares (by decide) rfl hk hrange⟩

end StatsMapping

end PartitionPruning
