import PartitionPruning.Proofs.Hive.Filter
import PartitionPruning.Proofs.Tree.Topmost
import PartitionPruning.Statistics.Query

/-! What the rewrites of whole trees reach: every topmost select of the result has a WHERE clause on
partition columns alone, or reads the statistics table. A select inside another one is left as it
is. -/

namespace PartitionPruning

/-- The select reads the table of this name. -/
def ReadsTable (name : String) (select : Node) : Prop :=
  ∃ table, select.fromTable? = some table ∧ table.hasType "BASE_TABLE" = true ∧
    table.field? "table_name" = some (.string name)

namespace StatsMapping

variable {m : StatsMapping}

theorem retarget_eq_ok {table r : Node} (h : m.retarget table = .ok r) :
    r.hasType "BASE_TABLE" = true ∧ r.field? "table_name" = some (.string m.table) := by
  unfold retarget at h
  split at h
  · rename_i htype
    refine ⟨?_, Node.field?_withField_self h⟩
    rw [Node.hasType, (Node.sameTag_withField h (by decide) (by decide)).type?]
    exact htype
  · rw [← Except.ok.inj h]
    exact ⟨rfl, rfl⟩

/-- A restated select has another table to read from and perhaps another WHERE clause. -/
theorem restateSelect_eq_ok {select r : Node} (h : m.restateSelect select = .ok r) :
    r.SameTag select ∧ ReadsTable m.table r := by
  unfold restateSelect at h
  split at h
  · contradiction
  · rename_i table _
    obtain ⟨target, htarget, h⟩ := bind_eq_ok.mp h
    obtain ⟨retargeted, hretargeted, h⟩ := bind_eq_ok.mp h
    obtain ⟨htype, hname⟩ := retarget_eq_ok htarget
    have htag : retargeted.SameTag select :=
      Node.sameTag_withField hretargeted (by decide) (by decide)
    have hfrom : retargeted.field? "from_table" = some target :=
      Node.field?_withField_self hretargeted
    have hreads {s : Node} (hs : s.field? "from_table" = some target) : ReadsTable m.table s := by
      refine ⟨target, ?_, htype, hname⟩
      rw [Node.fromTable?, Node.present?, hs]
      cases target <;> first | rfl | contradiction
    split at h
    · obtain rfl := Except.ok.inj h
      exact ⟨htag, hreads hfrom⟩
    · obtain ⟨clause, -, h⟩ := bind_eq_ok.mp h
      have hwhere := Node.sameTag_withField h (by decide) (by decide)
      refine ⟨hwhere.trans htag, hreads ?_⟩
      rw [Node.field?_withField_of_ne h (by decide), hfrom]

end StatsMapping

/-- Both rewrites of whole trees reach the topmost selects: each of them ends up on partition
columns, or on the statistics table. Dropping predicates always has a result. -/
theorem topmostHave_of_rewrites (partitions : List String) (m : StatsMapping) (tree : Node) :
    (∃ r, dropOtherPredicatesInTree partitions tree = .ok r ∧
      r.TopmostHave Node.isSelect (IsOnPartitions partitions)) ∧
    ∀ r, m.restateTree tree = .ok r → r.TopmostHave Node.isSelect (ReadsTable m.table) := by
  have hselect {f : Node → Except Fault Node}
      (hf : ∀ x y, x.isSelect = true → f x = .ok y → y.SameTag x) (x y : Node)
      (hxy : Node.replaceM Node.isSelect f x = .ok y) : y.isSelect = x.isSelect := by
    rw [Node.isSelect, Node.isSelect, (Node.sameTag_of_replaceM hf hxy).kind_eq]
  constructor
  · obtain ⟨r, hr⟩ := Node.exists_replaceM (fun _ => exists_dropOtherPredicates) tree
    refine ⟨r, hr, Node.topmostHave_of_replaceM ?_ (hselect ?_) hr⟩
    · exact fun _ _ _ => isOnPartitions_of_dropOtherPredicates
    · exact fun _ _ _ => sameTag_of_dropOtherPredicates
  · intro r hr
    refine Node.topmostHave_of_replaceM ?_ (hselect ?_) hr
    · exact fun _ _ _ h => (m.restateSelect_eq_ok h).2
    · exact fun _ _ _ h => (m.restateSelect_eq_ok h).1

/-- `SELECT ... FROM t WHERE c < '5'` -/
def innerSelect : Node :=
  .object [("type", .string "SELECT_NODE"), ("from_table", Build.baseTable "t"),
    ("where_clause", Build.comparison .lessThan (Build.reference ["c"]) (Build.varchar "5"))]

/-- The select under the name `s`, and another one that reads from `s`. -/
def nestedSelects : Node :=
  .object [("error", .bool false), ("statements", .array [.object [("node",
    .object [("type", .string "SELECT_NODE"),
      ("cte_map", .object [("map", .array [.object [("key", .string "s"),
        ("value", .object [("query", .object [("node", innerSelect)])])]])]),
      ("from_table", Build.baseTable "s")])]])]

/-- A select below another one keeps its predicate on a data column, and its table. -/
theorem not_forall_select :
    (∃ r, dropOtherPredicatesInTree ["p"] nestedSelects = .ok r ∧ innerSelect ∈ r.parts) ∧
      (∃ r, (StatsMapping.empty "t_stats").restateTree nestedSelects = .ok r ∧
        innerSelect ∈ r.parts) ∧
      innerSelect.isSelect = true ∧ ¬ IsOnPartitions ["p"] innerSelect ∧
      ¬ ReadsTable "t_stats" innerSelect := by
  have hmem {x : Except Fault Node} (h : (x.toOption.any (innerSelect ∈ ·.parts)) = true) :
      ∃ r, x = .ok r ∧ innerSelect ∈ r.parts := by
    cases x <;> simp_all [Except.toOption]
  refine ⟨hmem (by decide +kernel), hmem (by decide +kernel), by decide, fun h => ?_, ?_⟩
  · exact absurd (h _ rfl) (by decide +kernel)
  · rintro ⟨table, htable, -, hname⟩
    obtain rfl : Build.baseTable "t" = table := Option.some.inj htable
    exact absurd hname (by decide)

end PartitionPruning
