import PartitionPruning.Splits.Pack

/-! Packing file by file: what the next file does to the group that is being filled. Splits hold the
files they are made from, each as often as it is given, and no split is empty. -/

namespace PartitionPruning

namespace Splits

theorem toNat_addSizes (a b : UInt64) :
    (addSizes a b).toNat = min (a.toNat + b.toNat) (2 ^ 64 - 1) := by
  unfold addSizes
  split
  · rw [UInt64.toNat_add, Nat.mod_eq_of_lt ‹_›]
    omega
  · show 2 ^ 64 - 1 = _
    omega

section

variable {limit total : UInt64} {file : FileStatus} {files : List FileStatus}

/-- A file that brings the group over the limit ends it. -/
theorem packAfter_of_lt (h : limit < addSizes total file.size) :
    packAfter limit total (file :: files) = [file] :: packAfter limit 0 files := by
  rw [packAfter, if_pos h]

/-- The last file ends the group. -/
theorem packAfter_singleton : packAfter limit total [file] = [[file]] := by
  rw [packAfter]
  split <;> rfl

/-- Any other file is the first of the group that the files after it go on with. -/
theorem packAfter_of_not_lt {group : List FileStatus} {groups : List (List FileStatus)}
    (h : ¬limit < addSizes total file.size)
    (hgroups : packAfter limit (addSizes total file.size) files = group :: groups) :
    packAfter limit total (file :: files) = (file :: group) :: groups := by
  rw [packAfter, if_neg h, hgroups]

end

theorem flatten_packAfter (limit total : UInt64) (files : List FileStatus) :
    (packAfter limit total files).flatten = files := by
  fun_induction packAfter limit total files with
  | case1 total => rfl
  | case2 total file files hover ih => rw [List.flatten_cons, ih, List.singleton_append]
  | case3 total file files hover hnone ih =>
    rw [hnone] at ih
    rw [← ih]
    rfl
  | case4 total file files hover group groups hgroups ih =>
    rw [hgroups, List.flatten_cons] at ih
    rw [List.flatten_cons, List.cons_append, ih]

theorem ne_nil_of_mem_packAfter {limit total : UInt64} {files group : List FileStatus}
    (h : group ∈ packAfter limit total files) : group ≠ [] := by
  fun_induction packAfter limit total files with
  | case1 total => simp at h
  | case2 total file files hover ih =>
    rcases List.mem_cons.mp h with rfl | h
    · simp
    · exact ih h
  | case3 total file files hover hnone ih =>
    rw [List.mem_singleton.mp h]
    simp
  | case4 total file files hover first groups hgroups ih =>
    rcases List.mem_cons.mp h with rfl | h
    · simp
    · exact ih (hgroups ▸ List.mem_cons_of_mem _ h)

theorem perm_flatten_plan (limit : UInt64) (files : List FileStatus) :
    (plan limit files).flatten.Perm files := by
  rw [plan, pack, flatten_packAfter]
  exact List.mergeSort_perm _ _

end Splits

end PartitionPruning
