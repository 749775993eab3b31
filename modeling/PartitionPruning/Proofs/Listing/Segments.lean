import PartitionPruning.Listing.Segments
import PartitionPruning.Proofs.Failure
import PartitionPruning.Proofs.Text.Split
import PartitionPruning.Tree.Fields

/-! The partition directories of a path, with their keys. A lister passes on the values alone, in
the order of the directories. -/

namespace PartitionPruning

/-- A name that a file system has for a file or a directory. -/
structure IsFileName (name : String) : Prop where
  ne_empty : name ≠ ""
  no_slash : '/' ∉ name.toList

theorem isFileName_iff {name : String} : IsFileName name ↔ name ≠ "" ∧ '/' ∉ name.toList :=
  ⟨fun h => ⟨h.ne_empty, h.no_slash⟩, fun h => ⟨h.1, h.2⟩⟩

instance (name : String) : Decidable (IsFileName name) := decidable_of_iff _ isFileName_iff.symm

/-- The names of a path below `base`, however many slashes end the base, or stand behind it. -/
theorem relativeSegments_of_toList_eq {base path : String} {names : List String} (k : Nat)
    (hpath : path.toList = dropTrailing (· = '/') base.toList ++
      (List.replicate k '/' ++ (joinWith "/" names).toList))
    (hne : names ≠ []) (hnames : ∀ s ∈ names, IsFileName s) :
    relativeSegments base path = names.map String.toList := by
  rw [relativeSegments, hpath, afterPrefix?_append, Option.getD_some, filter_splitAll_replicate,
    splitAll_joinWith rfl hne fun s hs => (hnames s hs).no_slash]
  refine List.filter_eq_self.mpr fun cs hcs => ?_
  obtain ⟨s, hs, rfl⟩ := List.mem_map.mp hcs
  simpa using (hnames s hs).ne_empty

/-- A directory that stands for a value: a key, which is not empty, and the value behind the first
equals sign. -/
def IsPartition (directory value : String) : Prop :=
  ∃ key, key ≠ "" ∧ '=' ∉ key.toList ∧ directory = key ++ "=" ++ value

theorem directoryValue_eq_ok_iff {path directory value : String} :
    directoryValue path directory.toList = .ok value ↔ IsPartition directory value := by
  rw [directoryValue]
  constructor
  · intro h
    split at h
    · rename_i c key rest hsplit
      obtain rfl := Except.ok.inj h
      obtain ⟨hkey, hdirectory⟩ := splitFirst?_eq_some_iff.mp hsplit
      refine ⟨.ofList (c :: key), by simp [← String.toList_eq_nil_iff], by simpa using hkey, ?_⟩
      apply String.toList_inj.mp
      rw [hdirectory]
      simp
    · contradiction
  · rintro ⟨key, hne, hkey, rfl⟩
    have hsplit : splitFirst? '=' (key ++ "=" ++ value).toList = some (key.toList, value.toList) :=
      splitFirst?_eq_some_iff.mpr ⟨hkey, by simp⟩
    obtain ⟨c, cs, hcs⟩ := List.exists_cons_of_ne_nil (mt String.toList_eq_nil_iff.mp hne)
    rw [hsplit, hcs]
    simp

/-- The key and the value of a partition directory. -/
def entryOfDirectory? (directory : List Char) : Option (String × String) :=
  match splitFirst? '=' directory with
  | some (c :: key, value) => some (.ofList (c :: key), .ofList value)
  | _ => none

/-- The keys and values of all directories of a path below `base`, outermost first, if all of them
are partitions. -/
def partitionEntries? (base path : String) : Option (Fields String) :=
  (relativeDirectories base path).mapM entryOfDirectory?

theorem directoryValue_of_entry {path : String} {directory : List Char} {e : String × String}
    (h : entryOfDirectory? directory = some e) : directoryValue path directory = .ok e.2 := by
  rw [entryOfDirectory?] at h
  rw [directoryValue]
  cases hsplit : splitFirst? '=' directory with
  | none => simp [hsplit] at h
  | some parts =>
    obtain ⟨key, value⟩ := parts
    cases key with
    | nil => simp [hsplit] at h
    | cons c key =>
      rw [hsplit] at h
      rw [← Option.some.inj h]

theorem map_directoryValue {path : String} {directories : List (List Char)}
    {entries : Fields String} (h : directories.map entryOfDirectory? = entries.map some) :
    directories.map (directoryValue path) = (Fields.values entries).map .ok := by
  induction directories generalizing entries with
  | nil =>
    obtain rfl := List.map_eq_nil_iff.mp h.symm
    rfl
  | cons directory directories ih =>
    cases entries with
    | nil => contradiction
    | cons e entries =>
      obtain ⟨he, hrest⟩ := List.cons.inj h
      rw [List.map_cons, directoryValue_of_entry he, ih hrest]
      rfl

/-- The values of the outer directories, as a lister reads them. -/
theorem partitionSegments_of_entries {base path : String} {entries : Fields String} {depth : Nat}
    (h : partitionEntries? base path = some entries) (hdepth : depth ≤ entries.length) :
    partitionSegments base path depth = .ok ((Fields.values entries).take depth) := by
  have hmap : (relativeDirectories base path).map entryOfDirectory? = entries.map some :=
    mapM_eq_some.mp h
  have hlength : (relativeDirectories base path).length = entries.length := by
    simpa using congrArg List.length hmap
  rw [partitionSegments, if_neg (by omega)]
  refine mapM_eq_ok.mpr ?_
  rw [List.map_take, map_directoryValue hmap, List.map_take]

end PartitionPruning
