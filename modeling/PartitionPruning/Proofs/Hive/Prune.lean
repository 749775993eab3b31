import PartitionPruning.Hive.Prune
import PartitionPruning.Proofs.Expr.Build
import PartitionPruning.Proofs.Expr.Extension
import PartitionPruning.Proofs.Expr.Scale
import PartitionPruning.Proofs.Expr.Truth

/-! Pruning by partition values loses no file that a filter could find a row in. The partition part
of a filter is weaker than the filter, and where it is definitely false on the partition values, the
filter stays so with all other columns. -/

namespace PartitionPruning

/-! ### The partition part of a filter -/

section

variable {partitions : List String} {predicate filter : Node} {row full : Row}

theorem isColumnAmong_iff {reference : Node} : isColumnAmong partitions reference = true ↔
    ∃ name ∈ partitions, reference.columnNames = .ok [name] := by
  unfold isColumnAmong
  split <;> simp_all

theorem onlyPartitions_iff : onlyPartitions partitions predicate = true ↔
    predicate.subqueries = [] ∧ predicate.references ≠ [] ∧
      ∀ r ∈ predicate.references, ∃ name ∈ partitions, r.columnNames = .ok [name] := by
  simp only [onlyPartitions, Bool.and_eq_true, List.isEmpty_iff, Bool.not_eq_true',
    List.isEmpty_eq_false_iff, List.all_eq_true, isColumnAmong_iff, and_assoc]

theorem keepOrDrop_of_kept (h : predicate.isComparison = true)
    (hp : onlyPartitions partitions predicate = true) :
    keepOrDrop partitions predicate = predicate := by
  simp [keepOrDrop, h, hp]

theorem keepOrDrop_cases (partitions : List String) (predicate : Node) :
    keepOrDrop partitions predicate = predicate ∨
      keepOrDrop partitions predicate = Build.trueLiteral := by
  unfold keepOrDrop
  split
  · exact Or.inl rfl
  · exact Or.inr rfl

/-- Only a predicate that stands as it is can be anything but true. -/
theorem eval_of_keepOrDrop {v : Value}
    (h : (keepOrDrop partitions predicate).eval row = .known v) (hv : v ≠ .bool true) :
    predicate.eval row = .known v := by
  rcases keepOrDrop_cases partitions predicate with hk | hk
  · rwa [hk] at h
  · rw [hk, Build.eval_trueLiteral, Answer.known.injEq] at h
    exact absurd h.symm hv

theorem keepOrDrop_ne_aborted (h : predicate.eval row ≠ .aborted) :
    (keepOrDrop partitions predicate).eval row ≠ .aborted := by
  rcases keepOrDrop_cases partitions predicate with hk | hk
  · rwa [hk]
  · rw [hk, Build.eval_trueLiteral]
    simp

theorem eval_partitionPart_of_and (h : filter.isAnd = true) :
    (partitionPart partitions filter).eval row =
      Node.evalAll row .and ((filter.itemsOf "children").map (keepOrDrop partitions)) := by
  rw [partitionPart, if_pos h, Build.eval_conjunction]

theorem eval_of_isAnd (h : filter.isAnd = true) :
    filter.eval row = Node.evalAll row .and (filter.itemsOf "children") :=
  Node.eval_of_conjunction (by simpa [Node.isAnd] using h)

/-- The partition part of a filter has an answer if the filter's constants have values. -/
theorem partitionPart_ne_aborted (h : filter.ScalesFit) (row : Row) :
    (partitionPart partitions filter).eval row ≠ .aborted := by
  by_cases hand : filter.isAnd = true
  · rw [eval_partitionPart_of_and hand]
    refine Node.evalAll_ne_aborted fun n hn => ?_
    obtain ⟨child, hchild, rfl⟩ := List.mem_map.mp hn
    exact keepOrDrop_ne_aborted ((h.itemsOf hchild).eval_ne_aborted row)
  · rw [partitionPart, if_neg hand]
    split
    · exact keepOrDrop_ne_aborted (h.eval_ne_aborted row)
    · rw [Build.eval_trueLiteral]
      simp

/-- What the partition part says other than true comes from the filter: from one of the operands of
an `AND`, or from the whole filter. -/
theorem exists_of_partitionPart {v : Value}
    (h : (partitionPart partitions filter).eval row = .known v) (hv : v ≠ .bool true) :
    (filter.isAnd = true ∧ ∃ child ∈ filter.itemsOf "children", child.eval row = .known v) ∨
      filter.eval row = .known v := by
  by_cases hand : filter.isAnd = true
  · rw [eval_partitionPart_of_and hand] at h
    obtain ⟨n, hn, hvalue⟩ := Node.exists_of_evalAll h hv
    obtain ⟨child, hchild, rfl⟩ := List.mem_map.mp hn
    exact Or.inl ⟨hand, child, hchild, eval_of_keepOrDrop hvalue hv⟩
  · rw [partitionPart, if_neg hand] at h
    split at h
    · exact Or.inr (eval_of_keepOrDrop h hv)
    · rw [Build.eval_trueLiteral, Answer.known.injEq] at h
      exact absurd h.symm hv

/-- Where the partition part is definitely false, the filter is true of no row with these partition
values. -/
theorem satisfied_ne_true_of_partitionPart
    (h : (partitionPart partitions filter).satisfied row = .known false)
    (hfull : full.Extends row) : filter.satisfied full ≠ .known true := by
  intro htrue
  have hwhole := Node.satisfied_eq_true.mp htrue
  obtain ⟨v, hv, hvalue⟩ : ∃ v, v ≠ .bool true ∧
      (partitionPart partitions filter).eval row = .known v := by
    rcases Node.satisfied_eq_false.mp h with h | h
    · exact ⟨_, by simp, h⟩
    · exact ⟨_, by simp, h⟩
  -- A known value on the partition values stays on all columns, or the evaluation ends.
  have hnot {n : Node} (hrow : n.eval row = .known v) : n.eval full ≠ .known (.bool true) := by
    rcases n.eval_keptIn hfull v hrow with hkept | hended
    · rw [hkept, Ne, Answer.known.injEq]
      exact hv
    · simp [hended]
  rcases exists_of_partitionPart hvalue hv with ⟨hand, child, hchild, hrow⟩ | hrow
  · rw [eval_of_isAnd hand] at hwhole
    exact hnot hrow (Node.evalAll_eq_neutral.mp hwhole child hchild)
  · exact hnot hrow hwhole

/-- A false operand on partition columns makes the partition part of an `AND` false. -/
theorem satisfied_partitionPart_of_child (hfit : filter.ScalesFit) (hand : filter.isAnd = true)
    (hmem : predicate ∈ filter.itemsOf "children") (hp : predicate.isComparison = true)
    (honly : onlyPartitions partitions predicate = true)
    (hfalse : predicate.eval row = .known (.bool false)) :
    (partitionPart partitions filter).satisfied row = .known false := by
  refine Node.satisfied_eq_false.mpr (Or.inl ?_)
  rw [eval_partitionPart_of_and hand]
  have hmap : predicate ∈ (filter.itemsOf "children").map (keepOrDrop partitions) :=
    List.mem_map.mpr ⟨predicate, hmem, keepOrDrop_of_kept hp honly⟩
  show Node.evalAll row .and _ = .known (.bool ConjunctionOp.and.dominant)
  refine Node.evalAll_eq_dominant hmap hfalse fun n hn => ?_
  obtain ⟨child, hchild, rfl⟩ := List.mem_map.mp hn
  exact keepOrDrop_ne_aborted ((hfit.itemsOf hchild).eval_ne_aborted row)

end

/-! ### Files -/

section

variable {columns : List PartitionColumn} {predicate : Node}

/-- Whether a file stays: unless its partition values can be read and make the predicate false. -/
def staysListed (columns : List PartitionColumn) (predicate : Node) (file : ListedFile) : Bool :=
  match rowOfDirectories? columns file.partitions with
  | none => true
  | some row => predicate.satisfied row != .known false

theorem staysListed_eq_false {file : ListedFile} : staysListed columns predicate file = false ↔
    ∃ row, rowOfDirectories? columns file.partitions = some row ∧
      predicate.satisfied row = .known false := by
  unfold staysListed
  split <;> simp_all

theorem keepsFile_cases (columns : List PartitionColumn) (predicate : Node) (file : ListedFile) :
    keepsFile columns predicate file = .ok (staysListed columns predicate file) ∨
      keepsFile columns predicate file = .error .abort ∧
        ∃ row, predicate.satisfied row = .aborted := by
  unfold keepsFile staysListed
  cases rowOfDirectories? columns file.partitions with
  | none => exact Or.inl rfl
  | some row =>
    dsimp only
    cases hs : predicate.satisfied row with
    | known b => cases b <;> exact Or.inl rfl
    | unknown => exact Or.inl rfl
    | aborted => exact Or.inr ⟨rfl, row, hs⟩

theorem keepsFile_eq (h : ∀ row, predicate.eval row ≠ .aborted) (file : ListedFile) :
    keepsFile columns predicate file = .ok (staysListed columns predicate file) :=
  (keepsFile_cases columns predicate file).resolve_right fun ⟨_, row, hs⟩ =>
    h row (Node.satisfied_eq_aborted.mp hs)

theorem keepsFile_eq_ok {file : ListedFile} {keep : Bool}
    (h : keepsFile columns predicate file = .ok keep) :
    keep = staysListed columns predicate file := by
  rcases keepsFile_cases columns predicate file with hok | ⟨habort, -⟩
  · exact Except.ok.inj (h.symm.trans hok)
  · rw [habort] at h
    contradiction

/-- With an answer on every file, those that stay are kept, in their order. -/
theorem keepFiles_eq (h : ∀ row, predicate.eval row ≠ .aborted) (files : List ListedFile) :
    keepFiles columns predicate files =
      .ok ((files.filter (staysListed columns predicate)).map (·.status)) := by
  induction files with
  | nil => rfl
  | cons file files ih =>
    rw [keepFiles, keepsFile_eq h, ih]
    cases hs : staysListed columns predicate file <;>
      simp [bind, Except.bind, pure, Except.pure, hs]

/-- The files that are kept, if no evaluation ends early. -/
theorem keepFiles_eq_ok {files : List ListedFile} {statuses : List FileStatus}
    (h : keepFiles columns predicate files = .ok statuses) :
    statuses = (files.filter (staysListed columns predicate)).map (·.status) := by
  induction files generalizing statuses with
  | nil => exact (Except.ok.inj h).symm
  | cons file files ih =>
    rw [keepFiles, bind_eq_ok] at h
    obtain ⟨keep, hkeep, h⟩ := h
    obtain ⟨rest, hrest, h⟩ := bind_eq_ok.mp h
    rw [← Except.ok.inj h, ih hrest, keepsFile_eq_ok hkeep]
    cases hs : staysListed columns predicate file <;> simp [hs]

/-- The outcome of a listing out of which only some files are taken. -/
def takenFrom (keeps : ListedFile → Bool) :
    Except Fault (List ListedFile) → Except Failure (List FileStatus)
  | .ok files => .ok ((files.filter keeps).map (·.status))
  | .error fault => .error (.fault fault)

end

/-- Pruning takes some of the listed files, in their order. It leaves a file out only if its
partition values can be read and no row with these values satisfies the filter; and it does leave a
file out if they make false one of the comparisons on partition columns that an `AND` consists
of. -/
theorem pruneHive_sound {m : Type → Type} [Monad m] [LawfulMonad m] (list : Lister m)
    (base : String) {filter : Node} {columns : List PartitionColumn} (hcolumns : columns ≠ [])
    (hfit : filter.ScalesFit) :
    ∃ keeps : ListedFile → Bool,
      pruneHive list base (some filter) columns =
        takenFrom keeps <$> list (baseDirectory base) columns.length ∧
      (∀ file, keeps file = false →
        ∃ row, rowOfDirectories? columns file.partitions = some row ∧
          ∀ full : Row, full.Extends row → filter.satisfied full ≠ .known true) ∧
      ∀ file row, rowOfDirectories? columns file.partitions = some row → filter.isAnd = true →
        (∃ p ∈ filter.itemsOf "children", p.isComparison = true ∧ p.subqueries = [] ∧
          p.references ≠ [] ∧
          (∀ r ∈ p.references, ∃ column ∈ columns, r.columnNames = .ok [column.name]) ∧
          p.eval row = .known (.bool false)) →
        keeps file = false := by
  refine ⟨staysListed columns (partitionPart (columns.map (·.name)) filter), ?_, ?_, ?_⟩
  · rw [pruneHive, map_eq_pure_bind]
    refine bind_congr fun listing => ?_
    cases listing with
    | error fault => rfl
    | ok files =>
      show pure (selectFiles columns (some filter) files) = _
      have hempty : columns.isEmpty = false := by simpa using hcolumns
      rw [selectFiles, hempty, if_neg (by simp), partitionPredicate,
        keepFiles_eq (partitionPart_ne_aborted hfit)]
      rfl
  · intro file hfile
    obtain ⟨row, hrow, hfalse⟩ := staysListed_eq_false.mp hfile
    exact ⟨row, hrow, fun full hfull => satisfied_ne_true_of_partitionPart hfalse hfull⟩
  · rintro file row hrow hand ⟨p, hmem, hp, hsub, href, hnames, hfalse⟩
    refine staysListed_eq_false.mpr ⟨row, hrow, ?_⟩
    refine satisfied_partitionPart_of_child hfit hand hmem hp (onlyPartitions_iff.mpr ?_) hfalse
    refine ⟨hsub, href, fun r hr => ?_⟩
    obtain ⟨column, hcolumn, hname⟩ := hnames r hr
    exact ⟨column.name, List.mem_map.mpr ⟨column, hcolumn, rfl⟩, hname⟩

/-- `p = 50 AND c < 5`, with a number and a text for the values. -/
def numberFilter : Node :=
  Build.conjunction .and
    [Build.comparison .equal (Build.reference ["p"]) (Build.varchar "50"),
     Build.comparison .lessThan (Build.reference ["c"]) (Build.varchar "5")]

def numberFile (directory : String) : ListedFile :=
  ⟨⟨"data/p=" ++ directory ++ "/0.parquet", 10, 0⟩, [directory]⟩

/-- Of the directories `50`, `51` and one that is no number, `51` is pruned. -/
theorem pruneHive_sound_numbers :
    [(⟨"p", .scalar .integer⟩ : PartitionColumn)] ≠ [] ∧ numberFilter.ScalesFit ∧
      pruneHive (m := Id) (fun _ _ => .ok (["50", "51", "x"].map numberFile)) "data/*"
        (some numberFilter) [⟨"p", .scalar .integer⟩] =
      .ok [(numberFile "50").status, (numberFile "x").status] := by
  have hcolumns : [(⟨"p", .scalar .integer⟩ : PartitionColumn)] ≠ [] := by decide
  have hfit : numberFilter.ScalesFit := by decide +kernel
  obtain ⟨keeps, hprune, hkept, hpruned⟩ := pruneHive_sound (m := Id)
    (fun _ _ => .ok (["50", "51", "x"].map numberFile)) "data/*" hcolumns hfit
  have h50 : keeps (numberFile "50") = true := by
    refine eq_true_of_ne_false fun hfalse => ?_
    obtain ⟨row, hrow, hnone⟩ := hkept _ hfalse
    obtain rfl : [("p", .int 50)] = row := Option.some.inj ((by decide :
      rowOfDirectories? [⟨"p", .scalar .integer⟩] ["50"] = some [("p", .int 50)]).symm.trans hrow)
    refine hnone _ (Row.extends_append [("p", .int 50)] [("c", .int 1)]) ?_
    rw [Node.satisfied_eq_true, numberFilter, Build.eval_conjunction]
    simp only [Node.evalAll, Build.eval_comparison, Build.eval_reference, Build.eval_varchar]
    decide
  have h51 : keeps (numberFile "51") = false := by
    have href : (Build.comparison .equal (Build.reference ["p"]) (Build.varchar "50")).references =
        [Build.reference ["p"]] := by decide +kernel
    refine hpruned _ [("p", .int 51)] (by decide) (by decide)
      ⟨_, List.mem_cons_self, rfl, by decide +kernel, by simp [href], fun r hr => ?_, ?_⟩
    · rw [href, List.mem_singleton] at hr
      exact ⟨_, List.mem_singleton.mpr rfl, hr ▸ Build.columnNames_reference "p"⟩
    simp only [Build.eval_comparison, Build.eval_reference, Build.eval_varchar]
    decide
  have hx : keeps (numberFile "x") = true := by
    refine eq_true_of_ne_false fun hfalse => ?_
    obtain ⟨row, hrow, -⟩ := hkept _ hfalse
    exact absurd ((by decide : rowOfDirectories? [⟨"p", .scalar .integer⟩] ["x"] = none).symm.trans
      hrow) (by simp)
  refine ⟨hcolumns, hfit, hprune.trans ?_⟩
  show takenFrom keeps (.ok (["50", "51", "x"].map numberFile)) = _
  simp [takenFrom, h50, h51, hx]

end PartitionPruning
