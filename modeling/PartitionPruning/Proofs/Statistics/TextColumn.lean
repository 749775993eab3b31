import PartitionPruning.Proofs.Statistics.Restated
import PartitionPruning.Proofs.Tree.Search

/-! Statistics of a column of texts. The predicate on them compares the extremes with the text of
the constant, while the comparison itself reads the column's texts as values of the constant's type.
A file with a matching row is kept if and only if the two orders agree on the value. -/

namespace PartitionPruning

open PartitionPruning.Bound

namespace Value

theorem string_le_iff {s t : String} :
    (string s).Le (string t) ↔ (Ord.compare s t).isLE = true := by
  simp [Le, compare]

/-- A cast to a text is the text that a value is shown as. -/
theorem cast_varchar {v : Value} (h : v ≠ .null) :
    v.cast (.scalar .varchar) = .ok (string v.render) := by
  cases v with
  | null => exact absurd rfl h
  | _ => rfl

end Value

namespace Bound

/-- The predicate on an extreme, which is a text, is the comparison with the text of the constant.
-/
theorem exists_guarded_text (op : CompareOp) {extreme s : String} {literal : Node} {l : Value}
    {stats : Row} (hextreme : Fields.get? stats extreme = some (.string s))
    (hliteral : literal.eval stats = .known l) (hl : l ≠ .null) :
    ∃ p, guarded op extreme literal (.scalar .varchar) = .ok p ∧
      p.eval stats = .known (.bool (op.holds (Ord.compare s l.render))) := by
  exact exists_guarded_of_cast (by decide) hextreme rfl hliteral rfl
    (by rw [Value.cast_varchar hl]; rfl) rfl

end Bound

namespace StatsMapping

/-- A comparison bounds a column of texts, and the column and a constant with a value are its only
leaves. -/
structure BoundsText (m : StatsMapping) (n : Node) (name : String) (column : StatsColumn)
    (l : Value) : Prop where
  bound : ofComparison n ≠ .neither
  reference : ∃ reference, n.references = [reference] ∧ reference.columnNames = .ok [name]
  literal : ∃ literal, n.literals = [literal] ∧ Value.ofConstant literal = .ok l
  mapped : m.get? name = some column
  isText : column.type = .scalar .varchar
  notNull : l ≠ .null

variable {m : StatsMapping} {n : Node} {name lo hi : String} {column : StatsColumn} {l : Value}
  {stats : Row}

/-- The predicate on the statistics is false unless the extremes lie where the bound says, as seen
from the text of the constant. -/
theorem BoundsText.satisfied_ne_false_iff (h : m.BoundsText n name column l)
    (hlo : Fields.get? stats column.min = some (.string lo))
    (hhi : Fields.get? stats column.max = some (.string hi)) :
    (m.restateComparison n).satisfied stats ≠ .known false ↔
      ((ofComparison n).isUpper = true → (Value.string lo).Le (.string l.render)) ∧
      ((ofComparison n).isLower = true → (Value.string l.render).Le (.string hi)) := by
  obtain ⟨reference, href, hnames⟩ := h.reference
  obtain ⟨literal, hlit, hl⟩ := h.literal
  have hmem : literal ∈ n.literals := hlit ▸ List.mem_cons_self
  have hliteral : literal.eval stats = .known l :=
    Node.eval_of_isConstant (Node.of_mem_find hmem) hl
  have hle : (Value.string lo).Le (.string l.render) ↔
      CompareOp.lessOrEqual.holds (Ord.compare lo l.render) = true := Value.string_le_iff
  have hge : (Value.string l.render).Le (.string hi) ↔
      CompareOp.greaterOrEqual.holds (Ord.compare hi l.render) = true := by
    rw [Value.string_le_iff, Std.OrientedOrd.eq_swap, Ordering.isLE_swap]
    rfl
  have heval := eval_restateComparison h.bound href hlit hnames h.mapped
    (h.isText ▸ exists_guarded_text .lessOrEqual hlo hliteral h.notNull)
    (h.isText ▸ exists_guarded_text .greaterOrEqual hhi hliteral h.notNull)
  rw [Node.satisfied_of_eval heval, hle, hge]
  simp [Decidable.imp_iff_not_or]

/-- Of the files that may hold a row on which a comparison is true, judging by the extremes of a
column of texts, none is pruned. -/
def KeepsMatches (m : StatsMapping) (n : Node) (name : String) (column : StatsColumn) : Prop :=
  ∀ (v : String) (stats : Row) (lo hi : String), n.satisfied [(name, .string v)] = .known true →
    Fields.get? stats column.min = some (.string lo) →
    Fields.get? stats column.max = some (.string hi) →
    (Value.string lo).Le (.string v) → (Value.string v).Le (.string hi) →
    (m.restateComparison n).satisfied stats ≠ .known false

/-- A comparison of texts with a constant keeps the files with matches if and only if the texts on
which it is true also lie, as texts, on its side of the text of the constant. -/
theorem keepsMatches_iff (h : m.BoundsText n name column l) :
    m.KeepsMatches n name column ↔
      ∀ v : String, n.satisfied [(name, .string v)] = .known true →
        ((ofComparison n).isUpper = true → (Value.string v).Le (.string l.render)) ∧
        ((ofComparison n).isLower = true → (Value.string l.render).Le (.string v)) := by
  have hrefl (v : String) : (Value.string v).Le (.string v) :=
    Value.string_le_iff.mpr Std.ReflOrd.isLE_rfl
  constructor
  · intro hkeeps v htrue
    -- A file with this one row has it for both extremes.
    have hmin : Fields.get? [(column.min, Value.string v), (column.max, .string v)] column.min =
        some (.string v) := by simp [Fields.get?]
    have hmax : Fields.get? [(column.min, Value.string v), (column.max, .string v)] column.max =
        some (.string v) := by simp [Fields.get?]
    exact (h.satisfied_ne_false_iff hmin hmax).mp
      (hkeeps v _ v v htrue hmin hmax (hrefl v) (hrefl v))
  · intro hagree v stats lo hi htrue hmin hmax hlo hhi
    have htext (s : String) : (Value.string s).isOf (.scalar .varchar) = true := rfl
    obtain ⟨hupper, hlower⟩ := hagree v htrue
    refine (h.satisfied_ne_false_iff hmin hmax).mpr ⟨fun hside => ?_, fun hside => ?_⟩
    · exact Value.Le.trans (htext lo) (htext v) (htext l.render) hlo (hupper hside)
    · exact Value.Le.trans (htext l.render) (htext v) (htext hi) (hlower hside) hhi

def textColumn : StatsColumn := ⟨"min_c", "max_c", .scalar .varchar⟩

def textMapping : StatsMapping := ⟨"t_stats", [("c", textColumn)]⟩

def five : Node :=
  Build.valueConstant (Build.plainType "INTEGER") (.number (.integer 5 (by decide)))

/-- `c > 5` -/
def overFive : Node := Build.comparison .greaterThan (Build.reference ["c"]) five

theorem ofConstant_five : Value.ofConstant five = .ok (.int 5) := by
  have hid : Fields.get? scalarIds "INTEGER" = some .integer := rfl
  rw [five, Build.ofConstant_valueConstant hid (by simp)]
  rfl

theorem boundsText_overFive : textMapping.BoundsText overFive "c" textColumn (.int 5) where
  bound := by decide +kernel
  reference := ⟨Build.reference ["c"], by decide +kernel, rfl⟩
  literal := ⟨five, by decide +kernel, ofConstant_five⟩
  mapped := rfl
  isText := rfl
  notNull := by decide

/-- The constant bounds the column from below, and no text before `5` may satisfy the comparison. -/
theorem keepsMatches_iff_overFive :
    textMapping.BoundsText overFive "c" textColumn (.int 5) ∧
    (textMapping.KeepsMatches overFive "c" textColumn ↔
      ∀ v : String, overFive.satisfied [("c", .string v)] = .known true →
        ((ofComparison overFive).isUpper = true →
          (Value.string v).Le (.string (Value.int 5).render)) ∧
        ((ofComparison overFive).isLower = true →
          (Value.string (Value.int 5).render).Le (.string v))) :=
  ⟨boundsText_overFive, keepsMatches_iff boundsText_overFive⟩

/-- The text `10` is above 5 as a number and comes before `5` as a text: a file that holds it alone
is pruned, though its row satisfies the comparison. -/
theorem not_keepsMatches_overFive :
    overFive.satisfied [("c", .string "10")] = .known true ∧
    (textMapping.restateComparison overFive).satisfied
      [("min_c", .string "10"), ("max_c", .string "10")] = .known false ∧
    ¬ textMapping.KeepsMatches overFive "c" textColumn := by
  have htrue : overFive.satisfied [("c", .string "10")] = .known true := by
    rw [Node.satisfied_eq_true, overFive, Build.eval_comparison, Build.eval_reference,
      Node.eval_of_constant (n := five) (Build.kind_valueConstant _ _), ofConstant_five]
    decide +kernel
  have hfalse : (textMapping.restateComparison overFive).satisfied
      [("min_c", .string "10"), ("max_c", .string "10")] = .known false := by
    refine Decidable.of_not_not fun hkept => ?_
    have hlower := ((boundsText_overFive.satisfied_ne_false_iff rfl rfl).mp hkept).2
      (by decide +kernel)
    exact absurd (Value.string_le_iff.mp hlower) (by decide +kernel)
  exact ⟨htrue, hfalse, fun hkeeps => hkeeps "10" _ "10" "10" htrue rfl rfl
    ⟨.eq, rfl, rfl⟩ ⟨.eq, rfl, rfl⟩ hfalse⟩

end StatsMapping

end PartitionPruning
