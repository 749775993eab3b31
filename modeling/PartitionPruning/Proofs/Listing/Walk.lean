import Mathlib.Data.List.Nodup
import PartitionPruning.Listing.Local
import PartitionPruning.Proofs.Listing.Segments
import PartitionPruning.Proofs.Tree.Fields

/-! The walk through a directory tree. It meets the files that the tree holds at one depth and with
one extension, each of them once, whatever else there is in the tree. -/

namespace PartitionPruning

/-! ### Extensions -/

/-- The extension is what follows the last point of the name, and something stands before it. -/
def HasExtension (name extension : String) : Prop :=
  ∃ stem, stem ≠ "" ∧ '.' ∉ extension.toList ∧ name = stem ++ "." ++ extension

/-- In the reversed name the last point is the first one. -/
theorem hasExtension_iff {name extension : String} : HasExtension name extension ↔
    ∃ c cs, splitFirst? '.' name.toList.reverse = some (extension.toList.reverse, c :: cs) := by
  constructor
  · rintro ⟨stem, hne, hpoint, rfl⟩
    obtain ⟨c, cs, hcs⟩ := List.exists_cons_of_ne_nil
      (mt List.reverse_eq_nil_iff.mp (mt String.toList_eq_nil_iff.mp hne))
    refine ⟨c, cs, splitFirst?_eq_some_iff.mpr ⟨by simpa using hpoint, ?_⟩⟩
    rw [← hcs]
    simp
  · rintro ⟨c, cs, hsplit⟩
    obtain ⟨hpoint, hreverse⟩ := splitFirst?_eq_some_iff.mp hsplit
    refine ⟨.ofList (c :: cs).reverse, by simp [← String.toList_eq_nil_iff],
      by simpa using hpoint, ?_⟩
    apply String.toList_inj.mp
    rw [← List.reverse_reverse name.toList, hreverse]
    simp

theorem extension?_eq_some_iff {name extension : String} :
    extension? name = some extension ↔ HasExtension name extension := by
  have hreverse (cs : List Char) :
      String.ofList cs.reverse = extension ↔ cs = extension.toList.reverse := by
    rw [← String.toList_inj, String.toList_ofList, List.reverse_eq_iff]
  rw [hasExtension_iff, splitFirst?_eq, extension?]
  rcases name.toList.reverse.drop (name.toList.reverse.takeWhile (· ≠ '.')).length with
    _ | ⟨point, _ | ⟨c, cs⟩⟩
  · simp
  · simp
  · simp [hreverse]

/-! ### Files of a tree -/

/-- A file below a directory: the names of the directories that lead to it, its own name, and what
else is known of it. -/
structure FoundFile where
  directories : List String
  name : String
  size : UInt64
  lastModified : Int64

namespace FoundFile

def names (f : FoundFile) : List String := f.directories ++ [f.name]

/-- The path of the file if the directory that it lies below is at `base`. -/
def path (base : String) (f : FoundFile) : String := f.names.foldl joinPath base

def status (base : String) (f : FoundFile) : FileStatus := ⟨f.path base, f.size, f.lastModified⟩

/-- The file as it lies one directory further down. -/
def within (directory : String) (f : FoundFile) : FoundFile :=
  { f with directories := directory :: f.directories }

theorem names_ne_nil (f : FoundFile) : f.names ≠ [] := by simp [names]

theorem names_within (directory : String) (f : FoundFile) :
    (f.within directory).names = directory :: f.names := rfl

theorem within_injective (directory : String) : Function.Injective (within directory) := by
  intro f g h
  obtain ⟨fs, name, size, lastModified⟩ := f
  obtain ⟨gs, _, _, _⟩ := g
  simpa [within] using h

end FoundFile

namespace FileTree

/-- Names as a file system has them: those of one directory are distinct. -/
inductive WellNamed : FileTree → Prop where
  | file (size : UInt64) (lastModified : Int64) : WellNamed (file size lastModified)
  | directory {entries : List (String × FileTree)} (distinct : (Fields.keys entries).Nodup)
      (named : ∀ e ∈ entries, IsFileName e.1)
      (below : ∀ e ∈ entries, WellNamed e.2) : WellNamed (directory entries)

/-- The tree has the file in the place that its names lead to. -/
def Holds (tree : FileTree) (f : FoundFile) : Prop :=
  tree.find f.names = .ok (.file f.size f.lastModified)

/-- The tree has the file, exactly `depth` directories down and with the extension. -/
structure HoldsAt (tree : FileTree) (depth : Nat) (extension : String) (f : FoundFile) :
    Prop where
  holds : tree.Holds f
  depth_eq : f.directories.length = depth
  hasExtension : HasExtension f.name extension

variable {entries : List (String × FileTree)} {extension name : String} {depth : Nat}
  {tree : FileTree} {f g : FoundFile}

/-- The names on the way to anything in a tree are those of its entries. -/
theorem WellNamed.of_find {names : List String} {found : FileTree} (h : tree.WellNamed)
    (hfound : tree.find names = .ok found) : ∀ s ∈ names, IsFileName s := by
  induction names generalizing tree with
  | nil => simp
  | cons name names ih =>
    cases h with
    | file size lastModified => contradiction
    | directory distinct named below =>
      rw [find] at hfound
      split at hfound
      · rename_i next hnext
        have hmem := Fields.mem_of_get? hnext
        exact List.forall_mem_cons.mpr ⟨named _ hmem, ih (below _ hmem) hfound⟩
      · contradiction

/-- There is one file in one place. -/
theorem Holds.eq_of_names_eq (hf : tree.Holds f) (hg : tree.Holds g) (h : f.names = g.names) :
    f = g := by
  rw [Holds, h] at hf
  have hfile := Except.ok.inj (hf.symm.trans hg)
  obtain ⟨directories, name, size, lastModified⟩ := f
  obtain ⟨directories', name', size', lastModified'⟩ := g
  obtain ⟨hdirectories, hname⟩ := List.append_inj' h rfl
  simp_all

theorem holds_of_no_directories (hf : f.directories = []) : (directory entries).Holds f ↔
    Fields.get? entries f.name = some (.file f.size f.lastModified) := by
  rw [Holds, FoundFile.names, hf, List.nil_append, find]
  split
  · rename_i next hnext
    rw [find, hnext, Except.ok.injEq, Option.some.injEq]
  · rename_i hnone
    simp [hnone]

/-- A file further down lies in one of the directories, since a file has nothing below it. -/
theorem holds_within : (directory entries).Holds (g.within name) ↔
    ∃ below, Fields.get? entries name = some (directory below) ∧ (directory below).Holds g := by
  rw [Holds, FoundFile.names_within, find]
  split
  · rename_i next hnext
    cases next with
    | file size lastModified =>
      obtain ⟨s, names, hnames⟩ := List.exists_cons_of_ne_nil g.names_ne_nil
      simp [hnext, hnames, find]
    | directory below => simp [hnext, Holds, FoundFile.within]
  · rename_i hnone
    simp [hnone]

/-- What a walk meets at an entry of a directory, `depth` directories further down. -/
def filesOf (extension : String) : Nat → String × FileTree → List FoundFile
  | 0, (name, file size lastModified) =>
    if extension? name = some extension then [⟨[], name, size, lastModified⟩] else []
  | 0, (_, directory _) => []
  | _ + 1, (_, file _ _) => []
  | depth + 1, (name, directory entries) =>
    (entries.flatMap (filesOf extension depth)).map (.within name)

/-- The files that a walk through a directory meets, in the order in which it does. -/
def filesAt (extension : String) (depth : Nat) (entries : List (String × FileTree)) :
    List FoundFile :=
  entries.flatMap (filesOf extension depth)

theorem filesAt_cons (e : String × FileTree) (entries : List (String × FileTree)) :
    filesAt extension depth (e :: entries) =
      filesOf extension depth e ++ filesAt extension depth entries := rfl

theorem mem_filesOf_zero : f ∈ filesOf extension 0 (name, tree) ↔
    tree = file f.size f.lastModified ∧ name = f.name ∧ f.directories = [] ∧
      HasExtension f.name extension := by
  obtain ⟨directories, own, size, lastModified⟩ := f
  cases tree with
  | file size' lastModified' =>
    rw [filesOf]
    split
    · rename_i h
      have hextension := extension?_eq_some_iff.mp h
      simp only [List.mem_singleton, FoundFile.mk.injEq, file.injEq]
      constructor
      · rintro ⟨rfl, rfl, rfl, rfl⟩
        exact ⟨⟨rfl, rfl⟩, rfl, rfl, hextension⟩
      · rintro ⟨⟨rfl, rfl⟩, rfl, rfl, -⟩
        exact ⟨rfl, rfl, rfl, rfl⟩
    · rename_i h
      refine iff_of_false List.not_mem_nil ?_
      rintro ⟨-, rfl, -, hextension⟩
      exact h (extension?_eq_some_iff.mpr hextension)
  | directory below => simp [filesOf]

theorem mem_filesOf_succ : f ∈ filesOf extension (depth + 1) (name, tree) ↔
    ∃ below, tree = directory below ∧
      ∃ g ∈ filesAt extension depth below, g.within name = f := by
  cases tree with
  | file size lastModified => simp [filesOf]
  | directory below => simp [filesOf, filesAt]

theorem mem_filesAt : f ∈ filesAt extension depth entries ↔
    ∃ name tree, (name, tree) ∈ entries ∧ f ∈ filesOf extension depth (name, tree) := by
  simp [filesAt]

/-- A walk meets exactly the files that the tree holds. -/
theorem mem_filesAt_iff (h : (directory entries).WellNamed) :
    f ∈ filesAt extension depth entries ↔ (directory entries).HoldsAt depth extension f := by
  -- A step down takes the first of the file's directories, so the induction is on the depth.
  induction depth generalizing entries f with
  | zero =>
    cases h with
    | directory distinct named below =>
      rw [mem_filesAt]
      constructor
      · rintro ⟨name, tree, hmem, hf⟩
        obtain ⟨rfl, rfl, hdirectories, hextension⟩ := mem_filesOf_zero.mp hf
        have hget := (Fields.get?_eq_some_iff distinct).mpr hmem
        exact ⟨(holds_of_no_directories hdirectories).mpr hget, by rw [hdirectories]; rfl,
          hextension⟩
      · rintro ⟨hholds, hdepth, hextension⟩
        have hdirectories := List.eq_nil_of_length_eq_zero hdepth
        have hget := (holds_of_no_directories hdirectories).mp hholds
        exact ⟨_, _, Fields.mem_of_get? hget,
          mem_filesOf_zero.mpr ⟨rfl, rfl, hdirectories, hextension⟩⟩
  | succ depth ih =>
    cases h with
    | directory distinct named below =>
      rw [mem_filesAt]
      constructor
      · rintro ⟨name, tree, hmem, hf⟩
        obtain ⟨entries', rfl, g, hg, rfl⟩ := mem_filesOf_succ.mp hf
        obtain ⟨hholds, hdepth, hextension⟩ := (ih (below _ hmem)).mp hg
        have hget := (Fields.get?_eq_some_iff distinct).mpr hmem
        exact ⟨holds_within.mpr ⟨entries', hget, hholds⟩, congrArg Nat.succ hdepth, hextension⟩
      · rintro ⟨hholds, hdepth, hextension⟩
        obtain ⟨directories, own, size, lastModified⟩ := f
        obtain ⟨name, directories, rfl⟩ := List.exists_cons_of_length_eq_add_one hdepth
        obtain ⟨entries', hget, hholds⟩ :=
          holds_within (g := ⟨directories, own, size, lastModified⟩).mp hholds
        have hmem := Fields.mem_of_get? hget
        have hg := (ih (below _ hmem)).mpr ⟨hholds, Nat.succ.inj hdepth, hextension⟩
        exact ⟨name, _, hmem, mem_filesOf_succ.mpr ⟨entries', rfl, _, hg, rfl⟩⟩

theorem head?_names_of_mem_filesOf (h : f ∈ filesOf extension depth (name, tree)) :
    f.names.head? = some name := by
  cases depth with
  | zero =>
    obtain ⟨-, rfl, hdirectories, -⟩ := mem_filesOf_zero.mp h
    rw [FoundFile.names, hdirectories]
    rfl
  | succ depth =>
    obtain ⟨_, -, g, -, rfl⟩ := mem_filesOf_succ.mp h
    rfl

/-- Files from two entries differ in the first of their names. -/
theorem nodup_filesAt_of_nodup (distinct : (Fields.keys entries).Nodup)
    (h : ∀ e ∈ entries, (filesOf extension depth e).Nodup) :
    (filesAt extension depth entries).Nodup := by
  have hdistinct : entries.Pairwise fun a b => a.1 ≠ b.1 := List.pairwise_map.mp distinct
  refine List.nodup_flatMap.mpr ⟨h, hdistinct.imp fun hne => ?_⟩
  intro f hf hg
  have hnames := (head?_names_of_mem_filesOf hf).symm.trans (head?_names_of_mem_filesOf hg)
  exact hne (Option.some.inj hnames)

theorem nodup_filesOf (h : tree.WellNamed) : (filesOf extension depth (name, tree)).Nodup := by
  induction depth generalizing name tree with
  | zero =>
    cases tree with
    | file size lastModified =>
      rw [filesOf]
      split <;> simp
    | directory entries => simp [filesOf]
  | succ depth ih =>
    cases h with
    | file size lastModified => simp [filesOf]
    | directory distinct named below =>
      have hbelow := nodup_filesAt_of_nodup distinct fun e he => ih (below e he)
      exact hbelow.map (FoundFile.within_injective name)

/-- A walk meets no file twice. -/
theorem nodup_filesAt (h : (directory entries).WellNamed) :
    (filesAt extension depth entries).Nodup := by
  cases h with
  | directory distinct named below =>
    exact nodup_filesAt_of_nodup distinct fun e he => nodup_filesOf (below e he)

end FileTree

/-! ### The walk -/

namespace LocalLister

open FileTree (filesOf filesAt)

variable {l : LocalLister} {base directory : String} {depth : Nat}

/-- A file as it is listed when it is met below a directory. -/
def listFound (base directory : String) (f : FoundFile) : Except Fault ListedFile :=
  listedFile base (f.path directory) f.size f.lastModified

theorem walkEntries_of_walk {entries : List (String × FileTree)}
    (h : ∀ name tree, l.walk base (joinPath directory name) depth name tree =
      (filesOf l.extension depth (name, tree)).mapM (listFound base directory)) :
    l.walkEntries base directory depth entries =
      (filesAt l.extension depth entries).mapM (listFound base directory) := by
  induction entries with
  | nil => rw [walkEntries, filesAt, List.flatMap_nil, List.mapM_nil]; rfl
  | cons e entries ih =>
    obtain ⟨name, tree⟩ := e
    rw [walkEntries, h, ih, FileTree.filesAt_cons, List.mapM_append]

theorem walk_eq (name : String) (tree : FileTree) :
    l.walk base (joinPath directory name) depth name tree =
      (filesOf l.extension depth (name, tree)).mapM (listFound base directory) := by
  induction depth generalizing directory name tree with
  | zero =>
    cases tree with
    | file size lastModified =>
      rw [walk, filesOf]
      by_cases h : extension? name = some l.extension
      · rw [if_pos ⟨rfl, h⟩, if_pos h, List.mapM_cons, List.mapM_nil]
        rfl
      · rw [if_neg fun hboth => h hboth.2, if_neg h]
        rfl
    | directory entries => rw [walk, filesOf]; rfl
  | succ depth ih =>
    cases tree with
    | file size lastModified => rw [walk, filesOf, if_neg (by simp)]; rfl
    | directory entries =>
      rw [walk, walkEntries_of_walk fun name tree => ih name tree, filesOf, List.mapM_map]
      rfl

end LocalLister

end PartitionPruning
