import PartitionPruning.Proofs.Itemwise
import PartitionPruning.Proofs.Listing.Walk

/-! Listing a directory tree. A lister has a result if all files that it meets lie in partition
directories; the result is then settled by the files that the tree holds, however directories
enumerate their entries. -/

namespace PartitionPruning

/-! ### Paths -/

/-- What a path needs at its end for another name to follow. -/
def separator (directory : String) : List Char :=
  if directory = "" ∨ directory.toList.getLast? = some '/' then [] else ['/']

section

variable {directory name base : String} {names : List String}

theorem toList_joinPath (directory name : String) :
    (joinPath directory name).toList = directory.toList ++ (separator directory ++ name.toList) := by
  rw [joinPath, separator]
  split <;> simp

theorem separator_joinPath (directory : String) (hname : IsFileName name) :
    separator (joinPath directory name) = ['/'] := by
  obtain ⟨cs, c, hcs⟩ := List.eq_nil_or_concat name.toList |>.resolve_left
    (mt String.toList_eq_nil_iff.mp hname.ne_empty)
  have hlast : (joinPath directory name).toList.getLast? = some c := by
    rw [toList_joinPath, hcs]
    simp
  have hc : c ≠ '/' := by
    rintro rfl
    exact hname.no_slash (by simp [hcs])
  rw [separator, hlast, if_neg]
  rintro (hempty | hend)
  · rw [hempty] at hlast
    simp at hlast
  · exact hc (Option.some.inj hend)

theorem toList_foldl_joinPath (hne : names ≠ [])
    (hnames : ∀ s ∈ names, IsFileName s) :
    (names.foldl joinPath directory).toList =
      directory.toList ++ (separator directory ++ (joinWith "/" names).toList) := by
  induction names generalizing directory with
  | nil => contradiction
  | cons name names ih =>
    obtain ⟨hname, hrest⟩ := List.forall_mem_cons.mp hnames
    by_cases hnil : names = []
    · subst hnil
      exact toList_joinPath directory name
    · rw [List.foldl_cons, ih hnil hrest, separator_joinPath directory hname,
        toList_joinPath, toList_joinWith_cons hnil]
      simp

/-- The names that a path was made of are read back from it. -/
theorem relativeSegments_foldl_joinPath (hne : names ≠ [])
    (hnames : ∀ s ∈ names, IsFileName s) :
    relativeSegments base (names.foldl joinPath base) = names.map String.toList := by
  obtain ⟨k, hbase⟩ := exists_eq_dropTrailing_append '/' base.toList
  obtain ⟨j, hseparator⟩ : ∃ j, separator base = List.replicate j '/' := by
    rw [separator]
    split
    · exact ⟨0, rfl⟩
    · exact ⟨1, rfl⟩
  -- The slashes that end the base and the one that joins a name to it are dropped together.
  refine relativeSegments_of_toList_eq (k + j) ?_ hne hnames
  rw [toList_foldl_joinPath hne hnames, hseparator]
  nth_rewrite 1 [hbase]
  rw [List.append_assoc, ← List.append_assoc (List.replicate k '/'),
    List.replicate_append_replicate]

end

/-- A path with more slashes at its end. -/
def withSlashes (path : String) (k : Nat) : String := path ++ .ofList (List.replicate k '/')

theorem FileTree.pathNames_withSlashes (path : String) (k : Nat) :
    pathNames (withSlashes path k) = pathNames path := by
  rw [pathNames, withSlashes, String.toList_append, String.toList_ofList,
    splitAll_append_replicate, List.map_append, List.filter_append]
  simp [pathNames]

/-! ### Listed files -/

namespace FoundFile

variable {f g : FoundFile} {base : String} {file : ListedFile}

/-- All directories that lead to the file stand for values. -/
def IsPartitioned (f : FoundFile) : Prop := ∀ d ∈ f.directories, ∃ value, IsPartition d value

/-- The file in a listing of `base`, with the values of its directories from the outermost in. -/
structure IsListedAs (f : FoundFile) (base : String) (file : ListedFile) : Prop where
  status_eq : file.status = f.status base
  partitions : List.Forall₂ IsPartition f.directories file.partitions

theorem relativeSegments_path (hnames : ∀ s ∈ f.names, IsFileName s) :
    relativeSegments base (f.path base) = f.names.map String.toList :=
  relativeSegments_foldl_joinPath f.names_ne_nil hnames

theorem listFound_eq (hnames : ∀ s ∈ f.names, IsFileName s) :
    LocalLister.listFound base base f = (fun values => ⟨f.status base, values⟩) <$>
      f.directories.mapM fun d => directoryValue (f.path base) d.toList := by
  have hdirectories : relativeDirectories base (f.path base) =
      f.directories.map String.toList := by
    rw [relativeDirectories, relativeSegments_path hnames, names, List.map_append,
      List.map_singleton, List.dropLast_concat]
  rw [LocalLister.listFound, LocalLister.listedFile, partitionSegments,
    if_neg (Nat.lt_irrefl _), List.take_length, hdirectories, List.mapM_map]
  rfl

theorem listFound_eq_ok_iff (hnames : ∀ s ∈ f.names, IsFileName s) :
    LocalLister.listFound base base f = .ok file ↔ f.IsListedAs base file := by
  rw [listFound_eq hnames, map_eq_ok]
  simp only [mapM_eq_ok_iff_forall₂, directoryValue_eq_ok_iff]
  constructor
  · rintro ⟨values, hvalues, rfl⟩
    exact ⟨rfl, hvalues⟩
  · rintro ⟨hstatus, hvalues⟩
    exact ⟨file.partitions, hvalues, by rw [← hstatus]⟩

theorem exists_listFound_iff (hnames : ∀ s ∈ f.names, IsFileName s) :
    (∃ file, LocalLister.listFound base base f = .ok file) ↔ f.IsPartitioned := by
  have hvalues : f.IsPartitioned ↔
      ∃ values, f.directories.mapM (fun d => directoryValue (f.path base) d.toList) =
        .ok values := by
    rw [exists_mapM_eq_ok_iff]
    simp only [directoryValue_eq_ok_iff]
    rfl
  rw [hvalues, listFound_eq hnames, exists_map_eq_ok_iff]

theorem path_injective (hf : ∀ s ∈ f.names, IsFileName s)
    (hg : ∀ s ∈ g.names, IsFileName s) (h : f.path base = g.path base) :
    f.names = g.names := by
  have hsegments : f.names.map String.toList = g.names.map String.toList := by
    rw [← relativeSegments_path hf, h, relativeSegments_path hg]
  exact List.map_injective_iff.mpr (fun _ _ => String.toList_inj.mp) hsegments

end FoundFile

/-! ### Listings -/

/-- The files of a listing: those that the tree holds at the depth and with the extension, each
once and in the order of their paths. All of them lie in partition directories. -/
structure FileTree.IsListing (tree : FileTree) (base : String) (depth : Nat) (extension : String)
    (files : List ListedFile) : Prop where
  partitioned : ∀ f, tree.HoldsAt depth extension f → f.IsPartitioned
  sorted : files.Pairwise fun a b => a.status.path < b.status.path
  mem_iff : ∀ file, file ∈ files ↔ ∃ f, tree.HoldsAt depth extension f ∧ f.IsListedAs base file

/-- The files of the tree settle a listing. -/
theorem FileTree.IsListing.unique {tree : FileTree} {base : String} {depth : Nat}
    {extension : String} {files files' : List ListedFile}
    (h : tree.IsListing base depth extension files)
    (h' : tree.IsListing base depth extension files') : files = files' := by
  have hnodup {files : List ListedFile}
      (hsorted : files.Pairwise fun a b => a.status.path < b.status.path) : files.Nodup :=
    hsorted.imp fun hlt heq => by
      rw [heq] at hlt
      exact String.lt_irrefl _ hlt
  have hperm : files.Perm files' :=
    (List.perm_ext_iff_of_nodup (hnodup h.sorted) (hnodup h'.sorted)).mpr fun file =>
      (h.mem_iff file).trans (h'.mem_iff file).symm
  exact hperm.eq_of_pairwise (fun a b _ _ hab hba => absurd hba (String.lt_asymm hab))
    h.sorted h'.sorted

namespace LocalLister

open FileTree (filesAt)

variable {l : LocalLister} {base : String} {depth : Nat} {entries : List (String × FileTree)}
  {found : List ListedFile}

theorem named_of_mem_filesAt (h : (FileTree.directory entries).WellNamed) {extension : String}
    {f : FoundFile} (hf : f ∈ filesAt extension depth entries) :
    ∀ s ∈ f.names, IsFileName s :=
  h.of_find ((FileTree.mem_filesAt_iff h).mp hf).holds

/-- Files that are met in different places are listed under different paths. -/
theorem nodup_paths (h : (FileTree.directory entries).WellNamed) {extension : String} :
    ((filesAt extension depth entries).map (FoundFile.path base)).Nodup := by
  refine (FileTree.nodup_filesAt h).map_on fun f hf g hg hpath => ?_
  have hnames := FoundFile.path_injective (named_of_mem_filesAt h hf)
    (named_of_mem_filesAt h hg) hpath
  exact ((FileTree.mem_filesAt_iff h).mp hf).holds.eq_of_names_eq
    ((FileTree.mem_filesAt_iff h).mp hg).holds hnames

theorem map_path_of_listFound
    (hfound : (filesAt l.extension depth entries).mapM (listFound base base) = .ok found) :
    (filesAt l.extension depth entries).map (FoundFile.path base) =
      found.map fun file => file.status.path := by
  refine map_eq_map_iff_forall₂.mpr ?_
  refine (mapM_eq_ok_iff_forall₂.mp hfound).imp fun f file hfile => ?_
  obtain ⟨values, -, heq⟩ := bind_eq_ok.mp hfile
  rw [← Except.ok.inj heq]

theorem isListing_sortByPath (h : (FileTree.directory entries).WellNamed)
    (hfound : (filesAt l.extension depth entries).mapM (listFound base base) = .ok found) :
    (FileTree.directory entries).IsListing base depth l.extension (sortByPath found) where
  partitioned f hf := by
    have hmem := (FileTree.mem_filesAt_iff h).mpr hf
    have hlisted := exists_mapM_eq_ok_iff.mp ⟨found, hfound⟩ f hmem
    exact (FoundFile.exists_listFound_iff (named_of_mem_filesAt h hmem)).mp hlisted
  sorted := pairwise_lt_mergeSort_text (map_path_of_listFound hfound ▸ nodup_paths h)
  mem_iff file := by
    rw [sortByPath, (List.mergeSort_perm found _).mem_iff]
    constructor
    · intro hfile
      obtain ⟨f, hf, hlisted⟩ := exists_of_mem_of_mapM_eq_ok hfound hfile
      exact ⟨f, (FileTree.mem_filesAt_iff h).mp hf,
        (FoundFile.listFound_eq_ok_iff (named_of_mem_filesAt h hf)).mp hlisted⟩
    · rintro ⟨f, hf, hlisted⟩
      have hmem := (FileTree.mem_filesAt_iff h).mpr hf
      obtain ⟨file', hfile', hlisted'⟩ := exists_of_mapM_eq_ok hfound hmem
      rw [(FoundFile.listFound_eq_ok_iff (named_of_mem_filesAt h hmem)).mpr hlisted] at hlisted'
      obtain rfl := Except.ok.inj hlisted'
      exact hfile'

section

variable {root : FileTree}

theorem list_eq (hbase : root.find (FileTree.pathNames base) = .ok (.directory entries)) :
    l.list root base depth =
      sortByPath <$> (filesAt l.extension depth entries).mapM (listFound base base) := by
  rw [list, hbase]
  dsimp only
  rw [walkEntries_of_walk fun name tree => walk_eq name tree]

theorem exists_list_iff (hbase : root.find (FileTree.pathNames base) = .ok (.directory entries))
    (hnames : (FileTree.directory entries).WellNamed) :
    (∃ files, l.list root base depth = .ok files) ↔
      ∀ f, (FileTree.directory entries).HoldsAt depth l.extension f → f.IsPartitioned := by
  rw [list_eq hbase, exists_map_eq_ok_iff, exists_mapM_eq_ok_iff]
  refine forall_congr' fun f => ?_
  rw [← FileTree.mem_filesAt_iff hnames]
  exact forall_congr' fun hf => FoundFile.exists_listFound_iff (named_of_mem_filesAt hnames hf)

theorem list_eq_ok_iff (hbase : root.find (FileTree.pathNames base) = .ok (.directory entries))
    (hnames : (FileTree.directory entries).WellNamed) {files : List ListedFile} :
    l.list root base depth = .ok files ↔
      (FileTree.directory entries).IsListing base depth l.extension files := by
  have hlisting {files : List ListedFile} (h : l.list root base depth = .ok files) :
      (FileTree.directory entries).IsListing base depth l.extension files := by
    rw [list_eq hbase] at h
    obtain ⟨found, hfound, rfl⟩ := map_eq_ok.mp h
    exact isListing_sortByPath hnames hfound
  constructor
  · exact hlisting
  · intro h
    obtain ⟨files', hfiles'⟩ := (exists_list_iff hbase hnames).mpr h.partitioned
    rw [h.unique (hlisting hfiles'), hfiles']

end

theorem extension_ofExtension {extension : String} (hpoint : extension.toList.head? ≠ some '.') :
    (ofExtension extension).extension = extension := by
  have hkept : extension.toList.dropWhile (· = '.') = extension.toList := by
    cases hcs : extension.toList with
    | nil => rfl
    | cons c cs => exact List.dropWhile_cons_of_neg (by simpa [hcs] using hpoint)
  rw [ofExtension, hkept, String.ofList_toList]

/-- A lister has a result exactly if every file at the depth and with the extension lies in
partition directories; then the result is the listing of those files. It is settled by the files
that the tree holds, so neither the order in which directories enumerate their entries shows, nor
anything else that is in the tree. Slashes at the end of `base` only stand in the paths. -/
theorem lists_partition_files {root : FileTree} {base extension : String}
    {entries : List (String × FileTree)}
    (hbase : root.find (FileTree.pathNames base) = .ok (.directory entries))
    (hnames : (FileTree.directory entries).WellNamed)
    (hpoint : extension.toList.head? ≠ some '.') (slashes depth : Nat) :
    ((∃ files, (ofExtension extension).list root (withSlashes base slashes) depth = .ok files) ↔
      ∀ f, (FileTree.directory entries).HoldsAt depth extension f → f.IsPartitioned) ∧
    ∀ files, (ofExtension extension).list root (withSlashes base slashes) depth = .ok files ↔
      (FileTree.directory entries).IsListing (withSlashes base slashes) depth extension files := by
  have hfind : root.find (FileTree.pathNames (withSlashes base slashes)) =
      .ok (.directory entries) := by rw [FileTree.pathNames_withSlashes, hbase]
  have hextension := extension_ofExtension hpoint
  constructor
  · rw [exists_list_iff hfind hnames, hextension]
  · intro files
    rw [list_eq_ok_iff hfind hnames, hextension]

/-- Two partitions, not in order, among other files and directories. -/
def mixedEntries : List (String × FileTree) :=
  [("p=2", .directory [("b.parquet", .file 2 20), ("notes.txt", .file 9 0)]),
   ("tmp", .directory [("x.csv", .file 1 0)]),
   ("p=1=a", .directory [("a.parquet", .file 1 10)]),
   ("c.parquet", .file 3 30)]

def mixedListing : List ListedFile :=
  [⟨⟨"data//p=1=a/a.parquet", 1, 10⟩, ["1=a"]⟩, ⟨⟨"data//p=2/b.parquet", 2, 20⟩, ["2"]⟩]

theorem wellNamed_mixedEntries : (FileTree.directory mixedEntries).WellNamed := by
  refine .directory (by decide) (by decide) ?_
  simp only [mixedEntries, List.forall_mem_cons]
  refine ⟨.directory (by decide) (by decide) ?_, .directory (by decide) (by decide) ?_,
    .directory (by decide) (by decide) ?_, .file 3 30, by simp⟩
  all_goals simp [FileTree.WellNamed.file]

theorem list_mixedEntries :
    (ofExtension "parquet").list (.directory [("data", .directory mixedEntries)])
      (withSlashes "data" 2) 1 = .ok mixedListing := by
  have hwalk : (ofExtension "parquet").walkEntries "data//" "data//" 1 mixedEntries =
      .ok mixedListing.reverse := toOption_eq_some.mp (by decide +kernel)
  have hsort : sortByPath mixedListing.reverse = mixedListing := by
    simp [sortByPath, mixedListing, List.mergeSort]
  show sortByPath <$> (ofExtension "parquet").walkEntries "data//" "data//" 1 mixedEntries = _
  rw [hwalk]
  exact congrArg Except.ok hsort

theorem lists_partition_files_mixed :
    (FileTree.directory [("data", .directory mixedEntries)]).find (FileTree.pathNames "data") =
        .ok (.directory mixedEntries) ∧
      (FileTree.directory mixedEntries).WellNamed ∧ "parquet".toList.head? ≠ some '.' ∧
      (ofExtension "parquet").list (.directory [("data", .directory mixedEntries)])
        (withSlashes "data" 2) 1 = .ok mixedListing ∧
      (FileTree.directory mixedEntries).IsListing (withSlashes "data" 2) 1 "parquet"
        mixedListing := by
  have hbase : (FileTree.directory [("data", .directory mixedEntries)]).find
      (FileTree.pathNames "data") = .ok (.directory mixedEntries) := rfl
  have hpoint : "parquet".toList.head? ≠ some '.' := by decide
  have hlists := lists_partition_files hbase wellNamed_mixedEntries hpoint 2 1
  exact ⟨hbase, wellNamed_mixedEntries, hpoint, list_mixedEntries,
    (hlists.2 mixedListing).mp list_mixedEntries⟩

end LocalLister

end PartitionPruning
