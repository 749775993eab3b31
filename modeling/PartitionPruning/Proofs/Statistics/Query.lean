import PartitionPruning.Proofs.Hive.Query
import PartitionPruning.Proofs.Selects

/-! Restating a whole tree. It fails on a topmost select without a table to read from and on nothing
else, and it changes nothing but the tables and the WHERE clauses of the topmost selects. -/

namespace PartitionPruning

namespace StatsMapping

variable {m : StatsMapping} {select r : Node}

/-! ### Steps that do not fail -/

theorem exists_retarget (m : StatsMapping) (table : Node) : ∃ r, m.retarget table = .ok r := by
  unfold retarget
  split
  · rename_i htype
    have hbase : table.type? = some "BASE_TABLE" := by simpa [Node.hasType] using htype
    exact Node.exists_withField hbase _ _
  · exact ⟨_, rfl⟩

/-- What cannot be restated is true, so that only the shape of an `AND` could be in the way. -/
theorem exists_restateFilter_ok (m : StatsMapping) (filter : Node) :
    ∃ r, m.restateFilter filter = .ok r := by
  unfold restateFilter
  split
  · rename_i hand
    have hkind : filter.kind = .conjunction .and := by simpa [Node.isAnd] using hand
    obtain ⟨type, htype⟩ := Node.exists_type?_of_kind (n := filter) (by simp [hkind])
    exact Node.exists_withField htype _ _
  · split
    · exact ⟨_, rfl⟩
    · exact ⟨_, rfl⟩

theorem exists_restateSelect_iff (h : select.isSelect = true) :
    (∃ r, m.restateSelect select = .ok r) ↔ select.fromTable?.isSome = true := by
  unfold restateSelect
  split
  · rename_i hnone
    simp [hnone]
  · rename_i table htable
    refine iff_of_true ?_ (by rw [htable]; rfl)
    obtain ⟨target, htarget⟩ := m.exists_retarget table
    obtain ⟨type, htype⟩ := Node.exists_type?_of_isSelect h
    obtain ⟨retargeted, hretargeted⟩ := Node.exists_withField htype "from_table" target
    have hfrom : select.withFromTable target = .ok retargeted := hretargeted
    rw [htarget, ok_bind, hfrom, ok_bind]
    split
    · exact ⟨_, rfl⟩
    · rename_i filter _
      obtain ⟨clause, hclause⟩ := m.exists_restateFilter_ok filter
      have htag := Node.sameTag_withField hretargeted (by decide) (by decide)
      rw [hclause, ok_bind]
      exact Node.exists_withField (htag.type?.trans htype) _ _

theorem restateSelect_of_none (h : select.fromTable? = none) :
    m.restateSelect select = .error (.malformed (.noFromClause select.describe)) := by
  rw [restateSelect, h]

/-! ### What is changed -/

/-- The table and the WHERE clause give way to others if there are any, and no other value does. -/
theorem changesOnly_of_restateSelect (h : m.restateSelect select = .ok r) :
    select.ChangesOnly (fun key old _ =>
      (key = "from_table" ∨ key = "where_clause") ∧ old.isNull = false) r := by
  unfold restateSelect at h
  split at h
  · contradiction
  · rename_i table htable
    obtain ⟨target, -, h⟩ := bind_eq_ok.mp h
    obtain ⟨retargeted, hretargeted, h⟩ := bind_eq_ok.mp h
    have hold := Node.field?_of_present? htable
    have hnull : table.isNull = false := Node.isNull_of_present? htable
    split at h
    · obtain rfl := Except.ok.inj h
      exact Node.changesOnly_withField hold ⟨Or.inl rfl, hnull⟩ hretargeted
    · rename_i filter hfilter
      obtain ⟨clause, -, h⟩ := bind_eq_ok.mp h
      have hfrom : select.ChangesOnly
          (fun key old _ => key = "from_table" ∧ old.isNull = false) retargeted :=
        Node.changesOnly_withField hold ⟨rfl, hnull⟩ hretargeted
      have hwhere : retargeted.ChangesOnly
          (fun key old _ => key = "where_clause" ∧ old.isNull = false) r :=
        Node.changesOnly_withField (Node.field?_of_present? hfilter)
          ⟨rfl, Node.isNull_of_present? hfilter⟩ h
      refine hfrom.trans hwhere ?_ ?_ ?_
      · exact fun _ _ _ h => ⟨Or.inl h.1, h.2⟩
      · exact fun _ _ _ h => ⟨Or.inr h.1, h.2⟩
      · rintro _ _ _ _ ⟨rfl, -⟩ ⟨hkey, -⟩
        contradiction

end StatsMapping

/-- Restating a tree has a result if every topmost select has a table to read from; otherwise it
fails on the first one in document order that has none. The result differs from the tree only in
the tables and in the WHERE clauses of topmost selects, all of which read the statistics table. -/
theorem exists_restateTree_iff (m : StatsMapping) (tree : Node) :
    ((∃ r, m.restateTree tree = .ok r) ↔
      ∀ s ∈ tree.topmost Node.isSelect, s.fromTable?.isSome = true) ∧
    (∀ s, (tree.topmost Node.isSelect).find? (fun s => s.fromTable?.isNone) = some s →
      m.restateTree tree = .error (.malformed (.noFromClause s.describe))) ∧
    ∀ r, m.restateTree tree = .ok r →
      tree.ChangesTopmost Node.isSelect (fun before after =>
        before.ChangesOnly (fun key old _ =>
          (key = "from_table" ∨ key = "where_clause") ∧ old.isNull = false) after ∧
        ReadsTable m.table after) r := by
  have hselect : ∀ s ∈ tree.topmost Node.isSelect, s.isSelect = true := fun _ =>
    Node.of_mem_topmost
  refine ⟨?_, fun s hs => ?_, fun r hr => ?_⟩
  · rw [StatsMapping.restateTree, Node.exists_replaceM_iff]
    exact forall₂_congr fun s hs => StatsMapping.exists_restateSelect_iff (hselect s hs)
  · obtain ⟨hnone, before, after, hsplit, hbefore⟩ := List.find?_eq_some_iff_append.mp hs
    refine Node.replaceM_eq_error hsplit (fun t ht => ?_) ?_
    · have hmem : t ∈ tree.topmost Node.isSelect := by
        rw [hsplit]
        exact List.mem_append_left _ ht
      exact (StatsMapping.exists_restateSelect_iff (hselect t hmem)).mpr (by simpa using hbefore t ht)
    · exact StatsMapping.restateSelect_of_none (Option.isNone_iff_eq_none.mp hnone)
  · exact Node.changesTopmost_of_replaceM
      (fun _ _ _ h => ⟨m.changesOnly_of_restateSelect h, (m.restateSelect_eq_ok h).2⟩) hr

/-- `SELECT` without a table to read from -/
def tablelessSelect : Node :=
  .object [("type", .string "SELECT_NODE"), ("from_table", .null)]

/-- A select with a table is restated on its own, and not next to one without. -/
theorem exists_restateTree_iff_tableless :
    (∃ r, (StatsMapping.empty "t_stats").restateTree (.array [innerSelect]) = .ok r) ∧
      ((Node.array [innerSelect, tablelessSelect]).topmost Node.isSelect).find?
        (fun s => s.fromTable?.isNone) = some tablelessSelect ∧
      (StatsMapping.empty "t_stats").restateTree (.array [innerSelect, tablelessSelect]) =
        .error (.malformed (.noFromClause "SELECT_NODE")) := by
  have hfirst : ((Node.array [innerSelect, tablelessSelect]).topmost Node.isSelect).find?
      (fun s => s.fromTable?.isNone) = some tablelessSelect := by decide
  refine ⟨?_, hfirst, ?_⟩
  · exact (exists_restateTree_iff _ (.array [innerSelect])).1.mpr (by decide)
  · exact (exists_restateTree_iff _ _).2.1 tablelessSelect hfirst

end PartitionPruning
