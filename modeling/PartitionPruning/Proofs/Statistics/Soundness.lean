import PartitionPruning.Proofs.Statistics.Restated
import PartitionPruning.Proofs.Tree.Parts

/-! Pruning by statistics loses no file with a row that satisfies the filter, as long as the least
and greatest values of the file are right: the predicate on the statistics is true of them, or has
no answer. -/

namespace PartitionPruning

open PartitionPruning.Bound

/-! ### What the statistics have to say -/

/-- A value of a column, with what the statistics hold about it: extremes that are missing or null
count for nothing, and others are values of the type on their side of the value. -/
structure StatsColumn.Covers (column : StatsColumn) (stats : Row) (v : Value) : Prop where
  isOf : v.isOf column.type = true
  least : ∀ e, Fields.get? stats column.min = some e →
    e = .null ∨ e.isOf column.type = true ∧ e.Le v
  greatest : ∀ e, Fields.get? stats column.max = some e →
    e = .null ∨ e.isOf column.type = true ∧ v.Le e

namespace StatsMapping

variable {m : StatsMapping} {n : Node} {row stats : Row}

/-- A row of a file has values in all mapped columns, and the statistics of the file cover them. -/
def Covers (m : StatsMapping) (stats row : Row) : Prop :=
  ∀ name column, m.get? name = some column →
    ∃ v, Fields.get? row name = some v ∧ column.Covers stats v

/-- The constants that a comparison compares with mapped columns are nulls, texts, or of the
column's type. -/
def ComparesInType (m : StatsMapping) (n : Node) : Prop :=
  ∀ name column reference constant, m.get? name = some column → reference.isReference = true →
    reference.columnNames = .ok [name] → constant.isConstant = true →
    (n.field? "left" = some reference ∧ n.field? "right" = some constant ∨
      n.field? "left" = some constant ∧ n.field? "right" = some reference) →
    ∀ v, Value.ofConstant constant = .ok v →
      v = .null ∨ v.isOf column.type = true ∨ ∃ s, v = .string s

/-! ### One comparison -/

/-- What a comparison with a constant says about a column that it is true of: the constant stands
for a value of the column's type, which lies where the bound says. -/
theorem exists_bound (stats : Row) {reference literal : Node} {name : String}
    {column : StatsColumn} {v : Value}
    (hbound : ofComparison n ≠ .neither) (hchildren : n.field? "children" = none)
    (hchild : n.field? "child" = none) (href : n.references = [reference])
    (hlit : n.literals = [literal]) (hnames : reference.columnNames = .ok [name])
    (hcolumn : m.get? name = some column) (hconst : m.ComparesInType n)
    (hrow : Fields.get? row name = some v) (hv : v.isOf column.type = true)
    (htrue : n.eval row = .known (.bool true)) :
    ∃ l x, literal.eval stats = .known l ∧ x.isOf column.type = true ∧
      (∀ y, (l.cast column.type).toOption = some y → x.CastsTo column.type y) ∧
      ((ofComparison n).isUpper = true → v.Le x) ∧ ((ofComparison n).isLower = true → x.Le v) := by
  obtain ⟨op, hk, hisref, hiscon, hsides⟩ :=
    operands_of_bound hbound hchildren hchild href hlit
  have hreference : reference.eval row = .known v := by
    rw [Node.eval_of_isReference hisref hnames, hrow]
    rfl
  obtain ⟨op', -, hop, heval⟩ := exists_eval_of_operands hk hisref hiscon hsides
  rw [heval row v hreference] at htrue
  obtain ⟨l, hl, hknown⟩ := Answer.bind_eq_known.mp htrue
  have hresult : op'.result? v l = some (.bool true) := Answer.ofOption_eq_known.mp hknown
  have hkind : literal.kind = .constant := by simpa [Node.isConstant] using hiscon
  rw [Node.eval_of_constant hkind, Answer.ofExcept_eq_known] at hl
  rcases CompareOp.result?_eq_some hresult with ⟨-, h⟩ | ⟨hnull, a, x, o, ha, hx, ho, heq⟩
  · contradiction
  have hliteral : l.isOf column.type = true ∨ ∃ s, l = .string s :=
    (hconst name column reference literal hcolumn hisref hnames hiscon hsides l hl).resolve_left
      fun h => hnull (Or.inr (h ▸ rfl))
  obtain rfl : v = a :=
    Option.some.inj ((Value.coerceLike_of_isOf hv hliteral).symm.trans ha)
  have hholds : op'.holds o = true := (Value.bool.inj heq).symm
  have hcasts (y : Value) := Value.castsTo_of_coerceLike (y := y) hv hliteral hx
  refine ⟨l, x, ?_, (hcasts x).1, fun y => (hcasts y).2, ?_, ?_⟩
  · rw [Node.eval_of_constant hkind, hl]
    rfl
  · rw [hop]
    exact le_of_isUpper ho hholds
  · rw [hop]
    exact le_of_isLower ho hholds

/-- The predicate on the least value passes if the constant lies above a value of the column. -/
theorem exists_upperPredicate {column : StatsColumn} {literal : Node} {l v x : Value}
    (hcovers : column.Covers stats v) (hliteral : literal.eval stats = .known l)
    (hx : x.isOf column.type = true)
    (hcast : ∀ y, (l.cast column.type).toOption = some y → x.CastsTo column.type y)
    (hle : v.Le x) :
    ∃ p, upperPredicate column.min literal column.type = .ok p ∧ Passes (p.eval stats) := by
  refine exists_guarded hcovers.isOf hliteral fun e he => ?_
  refine (hcovers.least e he).imp_right fun ⟨hof, hbelow⟩ y z hy hz => ?_
  have hy := Value.castsTo_of_cast hof hy
  have hz := hcast z hz
  exact CompareOp.result?_lessOrEqual (hy.isOf hof) (hz.isOf hx)
    (hy.le hof hx hz (hbelow.trans hof hcovers.isOf hx hle))

/-- The predicate on the greatest value passes if the constant lies below a value of the column. -/
theorem exists_lowerPredicate {column : StatsColumn} {literal : Node} {l v x : Value}
    (hcovers : column.Covers stats v) (hliteral : literal.eval stats = .known l)
    (hx : x.isOf column.type = true)
    (hcast : ∀ y, (l.cast column.type).toOption = some y → x.CastsTo column.type y)
    (hle : x.Le v) :
    ∃ p, lowerPredicate column.max literal column.type = .ok p ∧ Passes (p.eval stats) := by
  refine exists_guarded hcovers.isOf hliteral fun e he => ?_
  refine (hcovers.greatest e he).imp_right fun ⟨hof, habove⟩ y z hy hz => ?_
  have hy := Value.castsTo_of_cast hof hy
  have hz := hcast z hz
  exact CompareOp.result?_greaterOrEqual (hy.isOf hof) (hz.isOf hx)
    (hz.le hx hof hy (hle.trans hx hcovers.isOf hof habove))

theorem join_passes {a b : Answer Value} (ha : Passes a) (hb : Passes b) :
    Passes (ConjunctionOp.and.join a b) := by
  rcases ha with rfl | rfl <;> rcases hb with rfl | rfl
  · exact Or.inl rfl
  · exact Or.inr rfl
  · exact Or.inr rfl
  · exact Or.inr rfl

theorem evalAll_passes {ns : List Node} (h : ∀ n ∈ ns, Passes (n.eval row)) :
    Passes (Node.evalAll row .and ns) := by
  induction ns with
  | nil => exact Or.inl rfl
  | cons n ns ih =>
    exact join_passes (h n List.mem_cons_self) (ih fun k hk => h k (List.mem_cons_of_mem _ hk))

/-- The predicate on the statistics passes where the comparison is true. -/
theorem restateComparison_passes (hcovers : m.Covers stats row) (hconst : m.ComparesInType n)
    (hchildren : n.field? "children" = none) (hchild : n.field? "child" = none)
    (htrue : n.eval row = .known (.bool true)) :
    Passes ((m.restateComparison n).eval stats) := by
  unfold restateComparison
  split
  · rename_i p hp
    obtain ⟨reference, literal, name, column, href, hlit, hnames, hcolumn, hbound, hp⟩ :=
      exists_of_boundPredicate? hp
    obtain ⟨v, hrow, hv⟩ := hcovers name column hcolumn
    obtain ⟨l, x, hl, hx, hcast, hupper, hlower⟩ := exists_bound stats hbound hchildren
      hchild href hlit hnames hcolumn hconst hrow hv.isOf htrue
    rcases hp with ⟨hside, hp⟩ | ⟨hside, hp⟩ | ⟨hside, lower, upper, hlow, hup, rfl⟩
    · obtain ⟨q, hq, hpasses⟩ := exists_upperPredicate hv hl hx hcast (hupper (by rw [hside]; rfl))
      rwa [Except.ok.inj (hp.symm.trans hq)]
    · obtain ⟨q, hq, hpasses⟩ := exists_lowerPredicate hv hl hx hcast (hlower (by rw [hside]; rfl))
      rwa [Except.ok.inj (hp.symm.trans hq)]
    · obtain ⟨q, hq, hpasses⟩ := exists_lowerPredicate hv hl hx hcast (hlower (by rw [hside]; rfl))
      obtain ⟨r, hr, hpasses'⟩ := exists_upperPredicate hv hl hx hcast (hupper (by rw [hside]; rfl))
      obtain rfl := Except.ok.inj (hlow.symm.trans hq)
      obtain rfl := Except.ok.inj (hup.symm.trans hr)
      rw [Build.eval_conjunction]
      refine evalAll_passes fun k hk => ?_
      rcases List.mem_cons.mp hk with rfl | hk
      · exact hpasses
      · rwa [List.mem_singleton.mp hk]
  · exact Or.inl Build.eval_trueLiteral
  · exact Or.inl Build.eval_trueLiteral

/-! ### Filters -/

/-- The statistics form of a filter passes where the filter is true. -/
theorem exists_restateFilter {filter : Node}
    (hplain : ∀ t ∈ filter.parts, t.isComparison = true →
      t.field? "children" = none ∧ t.field? "child" = none)
    (hcovers : m.Covers stats row)
    (hconst : ∀ t ∈ filter.parts, t.isComparison = true → m.ComparesInType t)
    (htrue : filter.eval row = .known (.bool true)) :
    ∃ restated, m.restateFilter filter = .ok restated ∧ Passes (restated.eval stats) := by
  have hpasses {t : Node} (ht : t ∈ filter.parts) (hvalue : t.eval row = .known (.bool true)) :
      Passes ((m.restateComparison t).eval stats) := by
    cases hcomparison : t.isComparison with
    | true =>
      obtain ⟨hchildren, hchild⟩ := hplain t ht hcomparison
      exact restateComparison_passes hcovers (hconst t ht hcomparison) hchildren hchild hvalue
    | false =>
      rw [restateComparison_of_other hcomparison]
      exact Or.inl Build.eval_trueLiteral
  obtain ⟨restated, hok, hform⟩ := m.exists_restateFilter_eq filter
  refine ⟨restated, hok, ?_⟩
  rcases hform with ⟨hand, hkind, hitems⟩ | ⟨-, rfl⟩
  · rw [Node.eval_of_conjunction hkind, Node.itemsOf_of_field? hitems]
    refine evalAll_passes fun k hk => ?_
    obtain ⟨child, hchild, rfl⟩ := List.mem_map.mp hk
    rw [Node.eval_of_conjunction (by simpa [Node.isAnd] using hand)] at htrue
    exact hpasses (Node.mem_parts_of_mem_itemsOf hchild child.self_mem_parts)
      (Node.evalAll_eq_neutral.mp htrue child hchild)
  · exact hpasses filter.self_mem_parts htrue

/-- A file with a row that satisfies a filter is never pruned by statistics that cover the row: the
statistics form of the filter is not false of them, and evaluating it comes to an end. -/
theorem restateFilter_sound {filter : Node}
    (hplain : ∀ t ∈ filter.parts, t.isComparison = true →
      t.field? "children" = none ∧ t.field? "child" = none)
    (hcovers : m.Covers stats row)
    (hconst : ∀ t ∈ filter.parts, t.isComparison = true → m.ComparesInType t)
    (htrue : filter.satisfied row = .known true) :
    ∃ restated, m.restateFilter filter = .ok restated ∧
      restated.satisfied stats ≠ .known false ∧ restated.satisfied stats ≠ .aborted := by
  obtain ⟨restated, hok, hpasses⟩ :=
    exists_restateFilter hplain hcovers hconst (Node.satisfied_eq_true.mp htrue)
  refine ⟨restated, hok, fun hfalse => ?_, fun habort => ?_⟩
  · rcases Node.satisfied_eq_false.mp hfalse with h | h <;>
      rcases hpasses with hp | hp <;> simp [hp] at h
  · have h := Node.satisfied_eq_aborted.mp habort
    rcases hpasses with hp | hp <;> simp [hp] at h

/-- A decimal column, cast to one place. -/
def placesMapping : StatsMapping :=
  ⟨"t_stats", [("c", ⟨"min_c", "max_c", .scalar (.decimal 4 1)⟩)]⟩

/-- `c < '1.26'` -/
def placesFilter : Node :=
  Build.comparison .lessThan (Build.reference ["c"]) (Build.varchar "1.26")

def placesValue : Value := .decimal ⟨false, 125, 2, by decide, by decide⟩

/-- Least value and constant are rounded to `1.2` and `1.3`, and the file with `1.25` is kept. -/
theorem restateFilter_sound_places :
    (∀ t ∈ placesFilter.parts, t.isComparison = true →
      t.field? "children" = none ∧ t.field? "child" = none) ∧
    placesMapping.Covers [("min_c", placesValue), ("max_c", .null)] [("c", placesValue)] ∧
    (∀ t ∈ placesFilter.parts, t.isComparison = true → placesMapping.ComparesInType t) ∧
    placesFilter.satisfied [("c", placesValue)] = .known true ∧
    ∃ restated, placesMapping.restateFilter placesFilter = .ok restated ∧
      restated.satisfied [("min_c", placesValue), ("max_c", .null)] ≠ .known false ∧
      restated.satisfied [("min_c", placesValue), ("max_c", .null)] ≠ .aborted := by
  have hplain : ∀ t ∈ placesFilter.parts, t.isComparison = true →
      t.field? "children" = none ∧ t.field? "child" = none := by decide +kernel
  have hcovers : placesMapping.Covers [("min_c", placesValue), ("max_c", .null)]
      [("c", placesValue)] := by
    intro name column hcolumn
    simp only [get?, placesMapping, Fields.get?] at hcolumn
    split at hcolumn
    · rename_i hname
      subst hname
      obtain rfl := Option.some.inj hcolumn
      refine ⟨placesValue, rfl, rfl, fun e he => ?_, fun e he => ?_⟩
      · obtain rfl : placesValue = e := Option.some.inj he
        exact Or.inr ⟨rfl, _, rfl, by decide⟩
      · exact Or.inl (Option.some.inj he).symm
    · contradiction
  have hconst : ∀ t ∈ placesFilter.parts, t.isComparison = true →
      placesMapping.ComparesInType t := by
    intro t ht hcomparison
    obtain rfl : t = placesFilter :=
      (by decide +kernel : ∀ t ∈ placesFilter.parts, t.isComparison = true → t = placesFilter)
        t ht hcomparison
    rintro name column reference constant - - - hconstant (⟨-, hright⟩ | ⟨hleft, -⟩) v hv
    · obtain rfl : Build.varchar "1.26" = constant := Option.some.inj hright
      rw [Build.ofConstant_varchar] at hv
      exact Or.inr (Or.inr ⟨_, (Except.ok.inj hv).symm⟩)
    · obtain rfl : Build.reference ["c"] = constant := Option.some.inj hleft
      exact absurd hconstant (by decide)
  have htrue : placesFilter.satisfied [("c", placesValue)] = .known true := by
    rw [Node.satisfied_eq_true, placesFilter, Build.eval_comparison, Build.eval_reference,
      Build.eval_varchar]
    decide +kernel
  exact ⟨hplain, hcovers, hconst, htrue, restateFilter_sound hplain hcovers hconst htrue⟩

end StatsMapping

end PartitionPruning
