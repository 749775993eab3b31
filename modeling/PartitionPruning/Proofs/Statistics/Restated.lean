import PartitionPruning.Proofs.Expr.Tag
import PartitionPruning.Proofs.Statistics.Bound
import PartitionPruning.Statistics.Query

/-! What comparisons and filters become on the statistics. A comparison becomes predicates on the
extremes of its column, or the true literal; a filter becomes an `AND` of what its operands become,
or what it becomes as a comparison. -/

namespace PartitionPruning

open PartitionPruning.Bound

/-- Predicates that compare extremes of a column with a constant, one or several of them joined. -/
inductive StatsColumn.Tests (column : StatsColumn) (literal : Node) : Node → Prop where
  | extreme {op : CompareOp} {extreme : String} {p : Node}
      (hextreme : extreme = column.min ∨ extreme = column.max)
      (hp : guarded op extreme literal column.type = .ok p) : Tests column literal p
  | both {p q : Node} (hp : Tests column literal p) (hq : Tests column literal q) :
      Tests column literal (Build.conjunction .and [p, q])

namespace StatsMapping

variable {m : StatsMapping} {n p : Node} {name : String} {column : StatsColumn} {stats : Row}

/-! ### Comparisons -/

/-- A column's predicate comes from the only reference and the only constant of a comparison. -/
theorem exists_of_boundPredicate? (h : m.boundPredicate? n = .ok (some p)) :
    ∃ reference literal name column, n.references = [reference] ∧ n.literals = [literal] ∧
      reference.columnNames = .ok [name] ∧ m.get? name = some column ∧
      ofComparison n ≠ .neither ∧
      (ofComparison n = .upper ∧ upperPredicate column.min literal column.type = .ok p ∨
        ofComparison n = .lower ∧ lowerPredicate column.max literal column.type = .ok p ∨
        ofComparison n = .both ∧ ∃ lower upper,
          lowerPredicate column.max literal column.type = .ok lower ∧
          upperPredicate column.min literal column.type = .ok upper ∧
          p = Build.conjunction .and [lower, upper]) := by
  unfold boundPredicate? at h
  split at h
  · cases h
  split at h
  · rename_i reference literal href hlit
    obtain ⟨names, hnames, h⟩ := bind_eq_ok.mp h
    split at h
    · rename_i name
      split at h
      · cases h
      · rename_i column hcolumn
        refine ⟨reference, literal, name, column, href, hlit, hnames, hcolumn, ?_⟩
        split at h
        · rename_i hbound
          obtain ⟨q, hq, hp⟩ := map_eq_ok.mp h
          exact ⟨by simp [hbound], Or.inl ⟨hbound, Option.some.inj hp ▸ hq⟩⟩
        · rename_i hbound
          obtain ⟨q, hq, hp⟩ := map_eq_ok.mp h
          exact ⟨by simp [hbound], Or.inr (Or.inl ⟨hbound, Option.some.inj hp ▸ hq⟩)⟩
        · rename_i hbound
          obtain ⟨lower, hlower, h⟩ := bind_eq_ok.mp h
          obtain ⟨upper, hupper, h⟩ := bind_eq_ok.mp h
          exact ⟨by simp [hbound], Or.inr (Or.inr ⟨hbound, lower, upper, hlower, hupper,
            (Option.some.inj (Except.ok.inj h)).symm⟩)⟩
        · cases h
    · cases h
  · cases h

/-- Whatever the bound is, the predicate compares extremes of the column with the constant. -/
theorem exists_tests_of_boundPredicate? (h : m.boundPredicate? n = .ok (some p)) :
    ∃ reference literal name column, n.references = [reference] ∧ n.literals = [literal] ∧
      reference.columnNames = .ok [name] ∧ m.get? name = some column ∧
      ofComparison n ≠ .neither ∧ column.Tests literal p := by
  obtain ⟨reference, literal, name, column, href, hlit, hnames, hcolumn, hbound, hp⟩ :=
    exists_of_boundPredicate? h
  refine ⟨reference, literal, name, column, href, hlit, hnames, hcolumn, hbound, ?_⟩
  rcases hp with ⟨-, hp⟩ | ⟨-, hp⟩ | ⟨-, lower, upper, hlower, hupper, rfl⟩
  · exact .extreme (Or.inl rfl) hp
  · exact .extreme (Or.inr rfl) hp
  · exact .both (.extreme (Or.inr rfl) hlower) (.extreme (Or.inl rfl) hupper)

theorem boundPredicate?_eq {reference literal : Node} (h : n.isComparison = true)
    (href : n.references = [reference]) (hlit : n.literals = [literal])
    (hnames : reference.columnNames = .ok [name]) (hcolumn : m.get? name = some column) :
    m.boundPredicate? n = match ofComparison n with
      | .upper => some <$> upperPredicate column.min literal column.type
      | .lower => some <$> lowerPredicate column.max literal column.type
      | .both => do
        let lower ← lowerPredicate column.max literal column.type
        let upper ← upperPredicate column.min literal column.type
        pure (some (Build.conjunction .and [lower, upper]))
      | .neither => pure none := by
  simp only [boundPredicate?, h, href, hlit, hnames, ok_bind, hcolumn]
  rfl

/-- Where the predicates on both extremes are true or false, the comparison becomes the conjunction
of those that its bound asks for. -/
theorem eval_restateComparison {reference literal : Node} {least greatest : Bool}
    (hbound : ofComparison n ≠ .neither) (href : n.references = [reference])
    (hlit : n.literals = [literal]) (hnames : reference.columnNames = .ok [name])
    (hcolumn : m.get? name = some column)
    (hupper : ∃ p, upperPredicate column.min literal column.type = .ok p ∧
      p.eval stats = .known (.bool least))
    (hlower : ∃ p, lowerPredicate column.max literal column.type = .ok p ∧
      p.eval stats = .known (.bool greatest)) :
    (m.restateComparison n).eval stats = .known (.bool
      ((!(ofComparison n).isUpper || least) && (!(ofComparison n).isLower || greatest))) := by
  obtain ⟨op, left, right, hk, -⟩ := exists_of_ofComparison hbound
  obtain ⟨upper, hupper, hevalUpper⟩ := hupper
  obtain ⟨lower, hlower, hevalLower⟩ := hlower
  rw [restateComparison, boundPredicate?_eq (Node.isComparison_of_kind hk) href hlit hnames hcolumn,
    hupper, hlower]
  cases hside : ofComparison n with
  | neither => exact absurd hside hbound
  | upper =>
    show upper.eval stats = _
    rw [hevalUpper]
    simp [isUpper, isLower]
  | lower =>
    show lower.eval stats = _
    rw [hevalLower]
    simp [isUpper, isLower]
  | both =>
    show (Build.conjunction .and [lower, upper]).eval stats = _
    rw [Build.eval_conjunction, Node.evalAll, Node.evalAll, Node.evalAll, hevalLower, hevalUpper]
    cases least <;> cases greatest <;> rfl

theorem restateComparison_of_other (h : n.isComparison = false) :
    m.restateComparison n = Build.trueLiteral := by
  have hnone : m.boundPredicate? n = .ok none := by
    rw [boundPredicate?, h]
    rfl
  rw [restateComparison, hnone]

/-! ### Filters -/

/-- An `AND` keeps all but its operands, each of which becomes what it is on the statistics; any
other filter becomes what it is as a comparison. -/
theorem exists_restateFilter_eq (m : StatsMapping) (filter : Node) :
    ∃ restated, m.restateFilter filter = .ok restated ∧
      (filter.isAnd = true ∧ restated.kind = .conjunction .and ∧
          restated.field? "children" =
            some (.array ((filter.itemsOf "children").map m.restateComparison)) ∨
        filter.isAnd = false ∧ restated = m.restateComparison filter) := by
  unfold restateFilter
  split
  · rename_i hand
    have hkind : filter.kind = .conjunction .and := by simpa [Node.isAnd] using hand
    obtain ⟨type, htype⟩ := Node.exists_type?_of_kind (n := filter) (by simp [hkind])
    obtain ⟨restated, hok⟩ := Node.exists_withField htype "children"
      (.array ((filter.itemsOf "children").map m.restateComparison))
    have htag := Node.sameTag_withField hok (by decide) (by decide)
    exact ⟨restated, hok, Or.inl ⟨hand, htag.kind_eq.trans hkind, Node.field?_withField_self hok⟩⟩
  · rename_i hand
    have hother : filter.isAnd = false := by simpa using hand
    split
    · exact ⟨_, rfl, Or.inr ⟨hother, rfl⟩⟩
    · rename_i hcomparison
      have hliteral := restateComparison_of_other (m := m) (by simpa using hcomparison)
      exact ⟨_, rfl, Or.inr ⟨hother, hliteral.symm⟩⟩

end StatsMapping

end PartitionPruning
