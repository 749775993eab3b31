import PartitionPruning.Proofs.Hive.Prune
import PartitionPruning.Proofs.Listing.Segments
import PartitionPruning.Proofs.Splits.Pack
import PartitionPruning.Proofs.Tree.Fields
import PartitionPruning.Splits.Plan

/-! The files that the splits of a query leave out. Declared columns are paired with the values of
directories by their positions, so what holds of the names holds where the columns are declared in
the order of the directories. -/

namespace PartitionPruning

/-! ### Partition values by name -/

/-- The value of every column in the directory of its name, if all of them can be read. -/
def namedRow? : List PartitionColumn → Fields String → Option Row
  | [], _ => some []
  | column :: columns, entries =>
    (Fields.get? entries column.name).bind fun raw => (partitionValue? column raw).bind fun v =>
      (namedRow? columns entries).map ((column.name, v) :: ·)

theorem namedRow?_cons_of_not_mem {columns : List PartitionColumn} {entries : Fields String}
    {name raw : String} (h : name ∉ columns.map (·.name)) :
    namedRow? columns ((name, raw) :: entries) = namedRow? columns entries := by
  induction columns with
  | nil => rfl
  | cons column columns ih =>
    obtain ⟨hne, hrest⟩ := not_or.mp (mt List.mem_cons.mpr h)
    rw [namedRow?, namedRow?, ih hrest, Fields.get?, if_neg hne]

/-- Directories in the order of the columns are read into the same values by position as by name. -/
theorem extendRow_eq_namedRow? {columns : List PartitionColumn} {entries : Fields String}
    {row : Row} (hkeys : Fields.keys entries = columns.map (·.name))
    (hdistinct : (Fields.keys row ++ columns.map (·.name)).Nodup) :
    extendRow row columns (Fields.values entries) = (namedRow? columns entries).map (row ++ ·) := by
  induction columns generalizing entries row with
  | nil => simp [extendRow, namedRow?]
  | cons column columns ih =>
    cases entries with
    | nil => contradiction
    | cons e entries =>
      obtain ⟨name, raw⟩ := e
      obtain ⟨rfl, htail⟩ := List.cons.inj hkeys
      obtain ⟨-, hcolumns, hapart⟩ := List.nodup_append.mp hdistinct
      have hfresh : column.name ∉ Fields.keys row := fun hmem =>
        hapart _ hmem _ List.mem_cons_self rfl
      rw [namedRow?, namedRow?_cons_of_not_mem (List.nodup_cons.mp hcolumns).1, Fields.get?,
        if_pos rfl, Option.bind_some, Option.map_bind]
      show (partitionValue? column raw).bind (fun v =>
        extendRow (Fields.insert row column.name v) columns (Fields.values entries)) = _
      refine Option.bind_congr fun v _ => ?_
      rw [Fields.insert_of_not_mem v hfresh,
        ih htail (by simpa [Fields.keys] using hdistinct), Function.comp_apply, Option.map_map]
      refine Option.map_congr fun rest _ => ?_
      simp

theorem rowOfDirectories?_eq_namedRow? {columns : List PartitionColumn} {entries : Fields String}
    (hkeys : Fields.keys entries = columns.map (·.name))
    (hdistinct : (columns.map (·.name)).Nodup) :
    rowOfDirectories? columns (Fields.values entries) = namedRow? columns entries := by
  have hlength : entries.length = columns.length := by
    simpa [Fields.keys] using congrArg List.length hkeys
  rw [rowOfDirectories?, if_neg (by simp [Fields.values, hlength]),
    extendRow_eq_namedRow? hkeys (by simpa [Fields.keys] using hdistinct)]
  simp

/-! ### Splits of a table in partition directories -/

/-- The splits of a table in partition directories, from the outcome of the listing. -/
def hiveSplits (filter : Option Node) (columns : List PartitionColumn) (limit : UInt64) :
    Except Fault (List ListedFile) → Except Failure (List (List FileStatus))
  | .ok files => Splits.plan limit <$> selectFiles columns filter files
  | .error fault => .error (.fault fault)

theorem splitsOf_of_hive {m : Type → Type} [Monad m] [LawfulMonad m] (list : Lister m)
    (scan : DeltaScan m) (limit : UInt64) {tree select : Node} {path : String}
    {columns : List PartitionColumn}
    (h : TableRead.ofTree tree = .ok ⟨select, path, .hive columns⟩) :
    splitsOf list scan tree limit = hiveSplits select.whereClause? columns limit <$>
      list (baseDirectory path) columns.length := by
  rw [splitsOf, h]
  show (pruneHive list path select.whereClause? columns >>= _) = _
  rw [pruneHive, bind_assoc, map_eq_pure_bind]
  refine bind_congr fun listing => ?_
  cases listing with
  | error fault => simp [hiveSplits]
  | ok files =>
    simp only [pure_bind, hiveSplits]
    cases selectFiles columns select.whereClause? files <;> rfl

/-- The value of every column can be read from the directory of its name, and with these values the
filter is true of no row. -/
def HasNoMatch (filter : Option Node) (columns : List PartitionColumn) (entries : Fields String) :
    Prop :=
  ∃ row w, namedRow? columns entries = some row ∧ filter = some w ∧
    ∀ full : Row, full.Extends row → w.satisfied full ≠ .known true

section

variable {filter : Option Node} {columns : List PartitionColumn} {files : List ListedFile}

theorem exists_selectFiles (hfit : ∀ w, filter = some w → w.ScalesFit) :
    ∃ statuses, selectFiles columns filter files = .ok statuses := by
  rw [selectFiles]
  split
  · exact ⟨_, rfl⟩
  · refine ⟨_, keepFiles_eq (fun row => ?_) files⟩
    cases filter with
    | none => simp [partitionPredicate, Build.eval_trueLiteral]
    | some w => exact partitionPart_ne_aborted (hfit w rfl) row

/-- A file is left out only if its values, paired with the columns by their positions, can be read
and the filter is true of no row with them. -/
theorem exists_keeps_of_selectFiles {statuses : List FileStatus}
    (h : selectFiles columns filter files = .ok statuses) :
    ∃ keeps : ListedFile → Bool, statuses = (files.filter keeps).map (·.status) ∧
      ∀ file, keeps file = false →
        ∃ row w, rowOfDirectories? columns file.partitions = some row ∧ filter = some w ∧
          ∀ full : Row, full.Extends row → w.satisfied full ≠ .known true := by
  rw [selectFiles] at h
  split at h
  · refine ⟨fun _ => true, ?_, by simp⟩
    rw [List.filter_eq_self.mpr fun _ _ => rfl]
    exact (Except.ok.inj h).symm
  · refine ⟨_, keepFiles_eq_ok h, fun file hfile => ?_⟩
    obtain ⟨row, hrow, hfalse⟩ := staysListed_eq_false.mp hfile
    cases filter with
    | none =>
      rw [partitionPredicate, Node.satisfied, Build.eval_trueLiteral] at hfalse
      contradiction
    | some w =>
      exact ⟨row, w, hrow, rfl, fun full hfull => satisfied_ne_true_of_partitionPart hfalse hfull⟩

end

/-- The splits of a table in partition directories hold listed files, each once. If the columns are
declared in the order of a file's directories, under distinct names, the file is left out only if
the filter is true of no row with the values that its directories give to the columns of their
names. -/
theorem splitsOf_keeps_matches {m : Type → Type} [Monad m] [LawfulMonad m] (list : Lister m)
    (scan : DeltaScan m) (limit : UInt64) {tree select : Node} {path : String}
    {columns : List PartitionColumn}
    (hread : TableRead.ofTree tree = .ok ⟨select, path, .hive columns⟩)
    (hdistinct : (columns.map (·.name)).Nodup) :
    splitsOf list scan tree limit = hiveSplits select.whereClause? columns limit <$>
      list (baseDirectory path) columns.length ∧
    ∀ files,
      ((∀ w, select.whereClause? = some w → w.ScalesFit) →
        ∃ splits, hiveSplits select.whereClause? columns limit (.ok files) = .ok splits) ∧
      ∀ splits, hiveSplits select.whereClause? columns limit (.ok files) = .ok splits →
        ∃ keeps : ListedFile → Bool,
          splits.flatten.Perm ((files.filter keeps).map (·.status)) ∧
          ∀ file entries, keeps file = false →
            partitionSegments (baseDirectory path) file.status.path columns.length =
              .ok file.partitions →
            partitionEntries? (baseDirectory path) file.status.path = some entries →
            Fields.keys entries = columns.map (·.name) →
            HasNoMatch select.whereClause? columns entries := by
  refine ⟨splitsOf_of_hive list scan limit hread, fun files => ⟨fun hfit => ?_, fun splits h => ?_⟩⟩
  · obtain ⟨statuses, hstatuses⟩ := exists_selectFiles hfit
    exact ⟨_, map_eq_ok.mpr ⟨statuses, hstatuses, rfl⟩⟩
  · obtain ⟨statuses, hstatuses, rfl⟩ := map_eq_ok.mp h
    obtain ⟨keeps, rfl, hleft⟩ := exists_keeps_of_selectFiles hstatuses
    refine ⟨keeps, Splits.perm_flatten_plan limit _, ?_⟩
    intro file entries hfile hvalues hentries hkeys
    obtain ⟨row, w, hrow, hw, hnone⟩ := hleft file hfile
    refine ⟨row, w, ?_, hw, hnone⟩
    have hlength : entries.length = columns.length := by
      simpa [Fields.keys] using congrArg List.length hkeys
    -- The lister has read the values of exactly these directories.
    have hpartitions : file.partitions = Fields.values entries := by
      have hread := partitionSegments_of_entries hentries (Nat.le_of_eq hlength.symm)
      rw [List.take_of_length_le (by simp [Fields.values, hlength])] at hread
      exact Except.ok.inj (hvalues.symm.trans hread)
    rw [← rowOfDirectories?_eq_namedRow? hkeys hdistinct, ← hpartitions]
    exact hrow

/-! ### Two partition columns -/

/-- An entry `name: INTEGER` of `hive_types`. -/
def declaredInteger (name : String) : Node :=
  .object [("class", .string "COLUMN_REF"), ("type", .string "COLUMN_REF"), ("alias", .string name),
    ("query_location", Build.zero), ("column_names", .array [.string "INTEGER"])]

/-- `a = '1'` -/
def isOne : Node := Build.comparison .equal (Build.reference ["a"]) (Build.varchar "1")

/-- `FROM read_parquet('data/t/*/*/*.parquet', hive_types = {...}) WHERE a = '1'`, with columns of
integers. -/
def declaredSelect (names : List String) : Node :=
  .object [("type", .string "SELECT_NODE"),
    ("from_table", .object [("type", .string "TABLE_FUNCTION"),
      ("function", Build.function "read_parquet" "" ""
        [Build.varchar "data/t/*/*/*.parquet",
         Build.comparison .equal (Build.reference ["hive_types"])
          (Build.function "struct_pack" "main" "" (names.map declaredInteger))])]),
    ("where_clause", isOne)]

def declaredTree (names : List String) : Node :=
  .object [("statements", .array [.object [("node", declaredSelect names)]])]

def integerColumns (names : List String) : List PartitionColumn :=
  names.map fun name => ⟨name, .scalar .integer⟩

def nestedFile : ListedFile := ⟨⟨"data/t/a=1/b=2/0.parquet", 10, 1⟩, ["1", "2"]⟩

def nestedEntries : Fields String := [("a", "1"), ("b", "2")]

theorem partitionEntries?_nestedFile :
    partitionEntries? (baseDirectory "data/t/*/*/*.parquet") nestedFile.status.path =
      some nestedEntries := by
  decide +kernel

theorem partitionSegments_nestedFile :
    partitionSegments (baseDirectory "data/t/*/*/*.parquet") nestedFile.status.path 2 =
      .ok nestedFile.partitions :=
  partitionSegments_of_entries partitionEntries?_nestedFile (Nat.le_refl 2)

theorem satisfied_isOne {row : Row} (h : Fields.get? row "a" = some (.int 1)) :
    isOne.satisfied row = .known true := by
  rw [Node.satisfied_eq_true, isOne, Build.eval_comparison, Build.eval_reference,
    Build.eval_varchar, h]
  decide +kernel

/-- With `hive_types = {a: INTEGER, b: INTEGER}` the file `a=1/b=2` is in the splits. -/
theorem splitsOf_keeps_matches_nested :
    TableRead.ofTree (declaredTree ["a", "b"]) = .ok ⟨declaredSelect ["a", "b"],
      "data/t/*/*/*.parquet", .hive (integerColumns ["a", "b"])⟩ ∧
    ((integerColumns ["a", "b"]).map (·.name)).Nodup ∧
    ∃ splits, splitsOf (m := Id) (fun _ _ => .ok [nestedFile]) (fun _ _ => .ok [])
        (declaredTree ["a", "b"]) 100 = .ok splits ∧
      nestedFile.status ∈ splits.flatten := by
  have hread : TableRead.ofTree (declaredTree ["a", "b"]) = .ok ⟨declaredSelect ["a", "b"],
      "data/t/*/*/*.parquet", .hive (integerColumns ["a", "b"])⟩ :=
    toOption_eq_some.mp (by decide +kernel)
  have hdistinct : ((integerColumns ["a", "b"]).map (·.name)).Nodup := by decide
  obtain ⟨hsplits, hfiles⟩ := splitsOf_keeps_matches (m := Id) (fun _ _ => .ok [nestedFile])
    (fun _ _ => .ok []) 100 hread hdistinct
  obtain ⟨hexists, hkept⟩ := hfiles [nestedFile]
  obtain ⟨splits, hok⟩ := hexists fun w hw => by
    obtain rfl := Option.some.inj hw
    decide +kernel
  refine ⟨hread, hdistinct, splits, hsplits.trans hok, ?_⟩
  obtain ⟨keeps, hperm, hleft⟩ := hkept splits hok
  have hkeep : keeps nestedFile = true := by
    refine eq_true_of_ne_false fun hfalse => ?_
    obtain ⟨row, w, hrow, hw, hnone⟩ := hleft nestedFile nestedEntries hfalse
      partitionSegments_nestedFile partitionEntries?_nestedFile rfl
    obtain rfl := Option.some.inj hw
    have hone : Fields.get? row "a" = some (.int 1) := by
      rw [← Option.some.inj ((by decide +kernel : namedRow? (integerColumns ["a", "b"])
        nestedEntries = some [("a", .int 1), ("b", .int 2)]).symm.trans hrow)]
      rfl
    exact hnone row (fun _ _ h => h) (satisfied_isOne hone)
  refine hperm.mem_iff.mpr ?_
  simp [hkeep]

/-- With `hive_types = {b: INTEGER, a: INTEGER}` the file `a=1/b=2` is left out of the splits,
though its row satisfies `a = '1'`. -/
theorem not_splitsOf_keeps_matches :
    TableRead.ofTree (declaredTree ["b", "a"]) = .ok ⟨declaredSelect ["b", "a"],
      "data/t/*/*/*.parquet", .hive (integerColumns ["b", "a"])⟩ ∧
    partitionSegments (baseDirectory "data/t/*/*/*.parquet") nestedFile.status.path 2 =
      .ok nestedFile.partitions ∧
    partitionEntries? (baseDirectory "data/t/*/*/*.parquet") nestedFile.status.path =
      some nestedEntries ∧
    (Fields.keys nestedEntries).Perm ((integerColumns ["b", "a"]).map (·.name)) ∧
    namedRow? (integerColumns ["b", "a"]) nestedEntries = some [("b", .int 2), ("a", .int 1)] ∧
    (declaredSelect ["b", "a"]).whereClause? = some isOne ∧
    isOne.satisfied [("b", .int 2), ("a", .int 1)] = .known true ∧
    splitsOf (m := Id) (fun _ _ => .ok [nestedFile]) (fun _ _ => .ok []) (declaredTree ["b", "a"])
      100 = .ok [] := by
  have hread : TableRead.ofTree (declaredTree ["b", "a"]) = .ok ⟨declaredSelect ["b", "a"],
      "data/t/*/*/*.parquet", .hive (integerColumns ["b", "a"])⟩ :=
    toOption_eq_some.mp (by decide +kernel)
  refine ⟨hread, partitionSegments_nestedFile, partitionEntries?_nestedFile, by decide,
    by decide +kernel, rfl, satisfied_isOne rfl, ?_⟩
  -- By position `a` is 2, which makes the partition predicate false.
  have hpredicate : partitionPredicate (integerColumns ["b", "a"])
      (declaredSelect ["b", "a"]).whereClause? = isOne := by decide +kernel
  have hfalse : isOne.satisfied [("b", .int 1), ("a", .int 2)] = .known false := by
    rw [Node.satisfied, isOne, Build.eval_comparison, Build.eval_reference, Build.eval_varchar]
    decide +kernel
  have hrow : rowOfDirectories? (integerColumns ["b", "a"]) nestedFile.partitions =
      some [("b", .int 1), ("a", .int 2)] := by decide +kernel
  rw [splitsOf_of_hive _ _ _ hread]
  show Splits.plan 100 <$> keepFiles (integerColumns ["b", "a"]) _ [nestedFile] = _
  rw [hpredicate, keepFiles, keepsFile, hrow]
  simp only [hfalse]
  exact congrArg Except.ok (by decide +kernel : Splits.plan 100 [] = [])

end PartitionPruning
