import PartitionPruning.Proofs.Hive.DirectoryName
import PartitionPruning.Proofs.Listing.Segments

/-! Paths of files in partition directories. Values of any characters that are written into the
directories of a path are read back from it, to any depth that the path has. -/

namespace PartitionPruning

namespace DirectoryName

/-- The directory of a partition, from its name and its value. -/
def ofPartition (e : String × String) : String := ofValue e.1 ++ "=" ++ ofValue e.2

variable {e : String × String}

theorem toList_ofPartition (e : String × String) :
    (ofPartition e).toList = escape e.1.toList ++ '=' :: escape e.2.toList := by
  simp [ofPartition, ofValue]

theorem slash_not_mem_ofPartition (e : String × String) : '/' ∉ (ofPartition e).toList := by
  rw [toList_ofPartition, List.mem_append, List.mem_cons]
  rintro (h | h | h)
  · exact slash_not_mem_escape _ h
  · contradiction
  · exact slash_not_mem_escape _ h

theorem ofPartition_ne_nil (e : String × String) : (ofPartition e).toList ≠ [] := by
  rw [toList_ofPartition]
  simp

/-- A directory is cut where its name ends, since the name holds no other equals sign. -/
theorem entryOfDirectory?_ofPartition (hname : e.1 ≠ "") :
    entryOfDirectory? (ofPartition e).toList = some (ofValue e.1, ofValue e.2) := by
  have hne : e.1.toList ≠ [] := mt String.toList_eq_nil_iff.mp hname
  obtain ⟨c, key, hkey⟩ := List.exists_cons_of_ne_nil (escape_ne_nil hne)
  rw [entryOfDirectory?, toList_ofPartition, splitFirst?_append (equals_not_mem_escape _), hkey]
  simp only [ofValue, hkey]

end DirectoryName

/-- The path of a file below `base`, in a directory for each of the partitions. -/
def partitionPath (base : String) (partitions : List (String × String)) (file : String) : String :=
  joinWith "/" (.ofList (dropTrailing (· = '/') base.toList) ::
    (partitions.map DirectoryName.ofPartition ++ [file]))

section

variable {partitions : List (String × String)} {file : String}

theorem relativeSegments_partitionPath (base : String) (hfile : file ≠ "")
    (hslash : '/' ∉ file.toList) : relativeSegments base (partitionPath base partitions file) =
      (partitions.map DirectoryName.ofPartition ++ [file]).map String.toList := by
  refine relativeSegments_of_toList_eq 1 ?_ (by simp) fun s hs => ?_
  · rw [partitionPath, toList_joinWith_cons (by simp), String.toList_ofList]
    rfl
  · rcases List.mem_append.mp hs with hs | hs
    · obtain ⟨e, -, rfl⟩ := List.mem_map.mp hs
      exact ⟨mt String.toList_eq_nil_iff.mpr (DirectoryName.ofPartition_ne_nil e),
        DirectoryName.slash_not_mem_ofPartition e⟩
    · rw [List.mem_singleton.mp hs]
      exact ⟨hfile, hslash⟩

theorem relativeDirectories_partitionPath (base : String) (hfile : file ≠ "")
    (hslash : '/' ∉ file.toList) : relativeDirectories base (partitionPath base partitions file) =
      partitions.map fun e => (DirectoryName.ofPartition e).toList := by
  rw [relativeDirectories, relativeSegments_partitionPath base hfile hslash, List.map_append,
    List.map_singleton, List.dropLast_concat, List.map_map]
  rfl

theorem partitionEntries?_partitionPath (base : String) (hnames : ∀ e ∈ partitions, e.1 ≠ "")
    (hfile : file ≠ "") (hslash : '/' ∉ file.toList) :
    partitionEntries? base (partitionPath base partitions file) =
      some (partitions.map fun e => (DirectoryName.ofValue e.1, DirectoryName.ofValue e.2)) := by
  rw [partitionEntries?, relativeDirectories_partitionPath base hfile hslash, mapM_eq_some,
    List.map_map, List.map_map]
  refine List.map_congr_left fun e he => ?_
  rw [Function.comp_apply, Function.comp_apply]
  exact DirectoryName.entryOfDirectory?_ofPartition (hnames e he)

/-- The values of partitions come back from the path of a file in their directories: the outer ones
to any depth that the path has, and none beyond it. -/
theorem partitionSegments_partitionPath (base : String) (hnames : ∀ e ∈ partitions, e.1 ≠ "")
    (hfile : file ≠ "") (hslash : '/' ∉ file.toList) (depth : Nat) :
    (depth ≤ partitions.length → ∃ segments,
      partitionSegments base (partitionPath base partitions file) depth = .ok segments ∧
      segments.map DirectoryName.toValue = (partitions.take depth).map Prod.snd) ∧
    (partitions.length < depth →
      partitionSegments base (partitionPath base partitions file) depth =
        .error (.listing (partitionPath base partitions file)
          (.missingDirectories depth partitions.length))) := by
  constructor
  · intro hdepth
    have hentries := partitionEntries?_partitionPath base hnames hfile hslash
    refine ⟨_, partitionSegments_of_entries hentries (by simpa using hdepth), ?_⟩
    rw [Fields.values, List.map_map, ← List.map_take, List.map_map]
    exact List.map_congr_left fun e _ => DirectoryName.toValue_ofValue e.2
  · intro hdepth
    rw [partitionSegments, relativeDirectories_partitionPath base hfile hslash, List.length_map,
      if_pos hdepth]

end

/-- Values with separators, escapes, a character beyond ASCII and no character at all. -/
def oddPartitions : List (String × String) := [("d t", "a/b=100%3D"), ("é", ""), ("p/q", "\n")]

theorem partitionSegments_partitionPath_odd :
    (∀ e ∈ oddPartitions, e.1 ≠ "") ∧ "0.parquet" ≠ "" ∧ '/' ∉ "0.parquet".toList ∧
      partitionPath "/data/t//" oddPartitions "0.parquet" =
        "/data/t/d t=a%2Fb%3D100%253D/é=/p%2Fq=%0A/0.parquet" ∧
      (∃ segments, partitionSegments "/data/t//"
          "/data/t/d t=a%2Fb%3D100%253D/é=/p%2Fq=%0A/0.parquet" 2 = .ok segments ∧
        segments.map DirectoryName.toValue = ["a/b=100%3D", ""]) ∧
      partitionSegments "/data/t//" "/data/t/d t=a%2Fb%3D100%253D/é=/p%2Fq=%0A/0.parquet" 4 =
        .error (.listing "/data/t/d t=a%2Fb%3D100%253D/é=/p%2Fq=%0A/0.parquet"
          (.missingDirectories 4 3)) := by
  have hnames : ∀ e ∈ oddPartitions, e.1 ≠ "" := by decide
  have hfile : "0.parquet" ≠ "" := by decide
  have hslash : '/' ∉ "0.parquet".toList := by decide
  have hpath : partitionPath "/data/t//" oddPartitions "0.parquet" =
      "/data/t/d t=a%2Fb%3D100%253D/é=/p%2Fq=%0A/0.parquet" := by decide +kernel
  have hread (depth : Nat) :=
    partitionSegments_partitionPath "/data/t//" hnames hfile hslash depth
  have hvalues : (oddPartitions.take 2).map Prod.snd = ["a/b=100%3D", ""] := rfl
  have hlength : oddPartitions.length = 3 := rfl
  rw [hpath, hlength] at hread
  exact ⟨hnames, hfile, hslash, hpath, hvalues ▸ (hread 2).1 (by decide), (hread 4).2 (by decide)⟩

end PartitionPruning
