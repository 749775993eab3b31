import PartitionPruning.Proofs.Splits.Packing

/-! Files larger than the limit. Such a file ends the group that it goes into, whatever the group
holds already, and so it is alone only where all groups before it have ended. -/

namespace PartitionPruning

namespace Splits

theorem totalSize_append (files others : List FileStatus) :
    totalSize (files ++ others) = totalSize files + totalSize others := by
  induction files with
  | nil => simp [totalSize]
  | cons file files ih => rw [List.cons_append, totalSize, totalSize, ih, Nat.add_assoc]

section

variable {limit : UInt64} {file : FileStatus} {files before after ended : List FileStatus}

/-! ### The group that is being filled -/

/-- Every group of these files has ended: it has gone over the limit. -/
def AllEnded (limit : UInt64) (files : List FileStatus) : Prop :=
  ∀ group ∈ pack limit files, limit.toNat < totalSize group

theorem allEnded_nil : AllEnded limit [] := by simp [AllEnded, pack, packAfter]

/-- Where all groups have ended, the files that follow are packed as if they were the first. -/
theorem AllEnded.pack_append (hlimit : limit < 0xFFFFFFFFFFFFFFFF) (h : AllEnded limit ended)
    (files : List FileStatus) :
    pack limit (ended ++ files) = pack limit ended ++ pack limit files := by
  unfold AllEnded at h
  have hpacking := isPacking_pack hlimit ended
  generalize pack limit ended = groups at h hpacking ⊢
  induction groups generalizing ended with
  | nil => rw [← hpacking.flatten]; rfl
  | cons group groups ih =>
    obtain ⟨rest, rfl, hgroup, hle, -, hrest⟩ := isPacking_cons_iff.mp hpacking
    obtain ⟨hfirst, h⟩ := List.forall_mem_cons.mp h
    rw [List.append_assoc, Splits.pack_append hlimit hgroup hle (Or.inl hfirst), ih h hrest,
      List.cons_append]

/-- Files that do not go over the limit are one group, which has not ended. -/
theorem pack_of_le (hlimit : limit < 0xFFFFFFFFFFFFFFFF) (hfiles : files ≠ [])
    (hle : totalSize files ≤ limit.toNat) : pack limit files = [files] := by
  have hdropLast : totalSize files.dropLast ≤ totalSize files := by
    conv => rhs; rw [← List.dropLast_concat_getLast hfiles, totalSize_append]
    exact Nat.le_add_right _ _
  have hpack : pack limit (files ++ []) = [files] :=
    pack_append hlimit hfiles (Nat.le_trans hdropLast hle) (Or.inr rfl)
  rwa [List.append_nil] at hpack

/-- All files are in groups that have ended, but for those of the group that is being filled. By
recursion on the files that the first group leaves. -/
theorem exists_opened (hlimit : limit < 0xFFFFFFFFFFFFFFFF) (files : List FileStatus) :
    ∃ ended opened, files = ended ++ opened ∧ AllEnded limit ended ∧
      totalSize opened ≤ limit.toNat := by
  by_cases hfiles : files = []
  · exact ⟨[], [], hfiles, allEnded_nil, Nat.zero_le _⟩
  obtain ⟨group, rest, hsplit, hgroup, hle, hend⟩ :=
    exists_group (Nat.zero_le limit.toNat) hfiles
  rw [Nat.zero_add] at hle hend
  by_cases hover : limit.toNat < totalSize group
  · obtain ⟨ended, opened, hrest, hended, hopened⟩ := exists_opened hlimit rest
    refine ⟨group ++ ended, opened, by rw [hsplit, hrest, List.append_assoc], ?_, hopened⟩
    rw [AllEnded, pack_append hlimit hgroup hle (Or.inl hover)]
    exact List.forall_mem_cons.mpr ⟨hover, hended⟩
  · obtain rfl := hend.resolve_left hover
    rw [List.append_nil] at hsplit
    exact ⟨[], group, hsplit, allEnded_nil, Nat.le_of_not_lt hover⟩
termination_by files.length
decreasing_by
  have hlength := congrArg List.length hsplit
  have hpos := List.length_pos_iff.mpr hgroup
  rw [List.length_append] at hlength
  omega

/-- Nothing is being filled if and only if all groups have ended. -/
theorem allEnded_append_iff (hlimit : limit < 0xFFFFFFFFFFFFFFFF) {opened : List FileStatus}
    (hended : AllEnded limit ended) (hopened : totalSize opened ≤ limit.toNat) :
    AllEnded limit (ended ++ opened) ↔ opened = [] := by
  constructor
  · intro h
    by_cases hne : opened = []
    · exact hne
    · have hmem : opened ∈ pack limit (ended ++ opened) := by
        rw [hended.pack_append hlimit, pack_of_le hlimit hne hopened]
        exact List.mem_append_right _ List.mem_cons_self
      exact absurd (h opened hmem) (Nat.not_lt.mpr hopened)
  · rintro rfl
    rwa [List.append_nil]

/-! ### A file larger than the limit -/

/-- Among these groups, which the file and those before and after it are packed into, the file ends
the one it is in. The files before it in its group are within the limit, and there are none exactly
if all groups of the earlier files have ended. -/
def EndsGroup (limit : UInt64) (before : List FileStatus) (file : FileStatus)
    (after : List FileStatus) (groups : List (List FileStatus)) : Prop :=
  ∃ ended opened, before = ended ++ opened ∧
    groups = pack limit ended ++ (opened ++ [file]) :: pack limit after ∧
    totalSize opened ≤ limit.toNat ∧ (opened = [] ↔ AllEnded limit before)

/-- A limit that a size can pass is not the largest number. -/
theorem lt_largest (h : limit < file.size) : limit < 0xFFFFFFFFFFFFFFFF := by
  have hsize := file.size.toNat_lt
  have hmax : (0xFFFFFFFFFFFFFFFF : UInt64).toNat = 2 ^ 64 - 1 := rfl
  rw [UInt64.lt_iff_toNat_lt] at h ⊢
  omega

theorem endsGroup_pack (hfile : limit < file.size) (before after : List FileStatus) :
    EndsGroup limit before file after (pack limit (before ++ file :: after)) := by
  have hlimit := lt_largest hfile
  obtain ⟨ended, opened, rfl, hended, hopened⟩ := exists_opened hlimit before
  refine ⟨ended, opened, rfl, ?_, hopened, (allEnded_append_iff hlimit hended hopened).symm⟩
  have hover : limit.toNat < totalSize (opened ++ [file]) := by
    rw [UInt64.lt_iff_toNat_lt] at hfile
    rw [totalSize_append, totalSize, totalSize]
    omega
  have hgroup : pack limit (opened ++ [file] ++ after) = (opened ++ [file]) :: pack limit after :=
    pack_append hlimit (by simp) (by rwa [List.dropLast_concat]) (Or.inl hover)
  rw [List.append_assoc, hended.pack_append hlimit, ← hgroup, List.append_assoc,
    List.singleton_append]

end

/-- In the groups of files, packed as they are listed or by the time of their last change, a file
larger than the limit is the last of its group. It is alone there if and only if all groups of the
files before it have ended. -/
theorem oversized_ends_group {limit : UInt64} {file : FileStatus} (hfile : limit < file.size)
    (files before after : List FileStatus) :
    (files = before ++ file :: after → EndsGroup limit before file after (pack limit files)) ∧
      (sortByChange files = before ++ file :: after →
        EndsGroup limit before file after (plan limit files)) := by
  constructor
  · rintro rfl
    exact endsGroup_pack hfile before after
  · intro hsorted
    rw [plan, hsorted]
    exact endsGroup_pack hfile before after

/-- Files of which two are larger than the limit `60`, one after a small file and one after the end
of a group. -/
def lateLargeFiles : List FileStatus :=
  [⟨"a", 30, 1⟩, ⟨"b", 100, 2⟩, ⟨"c", 70, 3⟩, ⟨"d", 5, 4⟩]

theorem sortByChange_lateLargeFiles : sortByChange lateLargeFiles = lateLargeFiles := by
  apply List.mergeSort_of_pairwise
  decide

/-- The first large file ends the group that `a` has opened; the second one is alone. -/
theorem oversized_ends_group_late :
    (60 : UInt64) < 100 ∧ sortByChange lateLargeFiles = lateLargeFiles ∧
      (plan 60 lateLargeFiles).map (List.map FileStatus.path) = [["a", "b"], ["c"], ["d"]] ∧
      EndsGroup 60 [⟨"a", 30, 1⟩] ⟨"b", 100, 2⟩ [⟨"c", 70, 3⟩, ⟨"d", 5, 4⟩]
        (plan 60 lateLargeFiles) := by
  have hlarge : (60 : UInt64) < 100 := by decide
  refine ⟨hlarge, sortByChange_lateLargeFiles, ?_, ?_⟩
  · rw [plan, sortByChange_lateLargeFiles]
    decide
  · exact (oversized_ends_group hlarge lateLargeFiles [⟨"a", 30, 1⟩] _).2
      sortByChange_lateLargeFiles

/-- Each file larger than the limit is the only one of its group. -/
def OversizedAlone (limit : UInt64) (groups : List (List FileStatus)) : Prop :=
  ∀ group ∈ groups, ∀ file ∈ group, limit < file.size → group = [file]

instance (limit : UInt64) (groups : List (List FileStatus)) :
    Decidable (OversizedAlone limit groups) := by
  unfold OversizedAlone
  infer_instance

/-- A large file that comes when a group is being filled goes into that group. -/
theorem not_oversizedAlone :
    ¬ OversizedAlone 60 (pack 60 lateLargeFiles) ∧
      ¬ OversizedAlone 60 (plan 60 lateLargeFiles) := by
  rw [plan, sortByChange_lateLargeFiles]
  decide

end Splits

end PartitionPruning
