import PartitionPruning.Proofs.Splits.Pack

/-! The order of the files in a plan. They go by the time of their last change, and files of one
time stay as they are listed. Only one order is of this kind, so two listings have the same plan if
and only if they list the files of each time alike. -/

namespace PartitionPruning

namespace Splits

/-- The files that were last changed at a time, in order. -/
def changedAt (time : Int64) (files : List FileStatus) : List FileStatus :=
  files.filter fun file => decide (file.lastModified = time)

/-- Later files were changed later, or at the same time. -/
def InOrder (files : List FileStatus) : Prop :=
  files.Pairwise fun a b => a.lastModified ≤ b.lastModified

variable {files others : List FileStatus} {file other : FileStatus} {time : Int64}

/-! ### Files of one time -/

theorem mem_changedAt : file ∈ changedAt time files ↔ file ∈ files ∧ file.lastModified = time := by
  simp [changedAt]

theorem changedAt_cons_of_eq (h : file.lastModified = time) :
    changedAt time (file :: files) = file :: changedAt time files := by
  simp [changedAt, h]

theorem changedAt_cons_of_ne (h : file.lastModified ≠ time) :
    changedAt time (file :: files) = changedAt time files := by
  simp [changedAt, h]

/-- A list holds all files of the lists of its times. -/
theorem subset_of_changedAt_eq (h : ∀ time, changedAt time files = changedAt time others) :
    files ⊆ others := by
  intro file hfile
  have hmem : file ∈ changedAt file.lastModified others := by
    rw [← h]
    exact mem_changedAt.mpr ⟨hfile, rfl⟩
  exact (mem_changedAt.mp hmem).1

theorem InOrder.le_of_mem (h : InOrder (file :: files)) (hother : other ∈ file :: files) :
    file.lastModified ≤ other.lastModified := by
  rcases List.mem_cons.mp hother with rfl | hother
  · exact Int64.le_refl _
  · exact List.rel_of_pairwise_cons h hother

/-- Only one list in order has these files of each time. By induction on both lists: each of the two
first files is in the other list, so they are of one time, and the first of it in both lists. -/
theorem InOrder.eq_of_changedAt_eq (hfiles : InOrder files) (hothers : InOrder others)
    (h : ∀ time, changedAt time files = changedAt time others) : files = others := by
  induction files generalizing others with
  | nil =>
    have hsubset : others ⊆ [] := subset_of_changedAt_eq fun time => (h time).symm
    exact (List.subset_nil.mp hsubset).symm
  | cons file files ih =>
    cases others with
    | nil => exact List.subset_nil.mp (subset_of_changedAt_eq h)
    | cons other others =>
      have hle : other.lastModified ≤ file.lastModified :=
        hothers.le_of_mem (subset_of_changedAt_eq h List.mem_cons_self)
      have hge : file.lastModified ≤ other.lastModified :=
        hfiles.le_of_mem (subset_of_changedAt_eq (fun time => (h time).symm) List.mem_cons_self)
      have htime : other.lastModified = file.lastModified := Int64.le_antisymm hle hge
      have hhead := h file.lastModified
      rw [changedAt_cons_of_eq rfl, changedAt_cons_of_eq htime] at hhead
      obtain ⟨rfl, hrest⟩ := List.cons.inj hhead
      congr 1
      apply ih hfiles.tail hothers.tail
      intro time
      by_cases heq : file.lastModified = time
      · rw [← heq]
        exact hrest
      · have htail := h time
        rwa [changedAt_cons_of_ne heq, changedAt_cons_of_ne heq] at htail

/-! ### Sorting -/

theorem change_trans (a b c : FileStatus) (hab : decide (a.lastModified ≤ b.lastModified) = true)
    (hbc : decide (b.lastModified ≤ c.lastModified) = true) :
    decide (a.lastModified ≤ c.lastModified) = true := by
  simp only [decide_eq_true_eq] at hab hbc ⊢
  exact Int64.le_trans hab hbc

theorem change_total (a b : FileStatus) :
    (decide (a.lastModified ≤ b.lastModified) || decide (b.lastModified ≤ a.lastModified)) =
      true := by
  simpa using Int64.le_total a.lastModified b.lastModified

theorem inOrder_sortByChange (files : List FileStatus) : InOrder (sortByChange files) := by
  have hsorted := List.pairwise_mergeSort change_trans change_total files
  simpa [InOrder, sortByChange] using hsorted

/-- Sorting leaves the files of one time as they are: they are in order among themselves, so they
are a sublist of the sorted files, and all of them of that time. -/
theorem changedAt_sortByChange (time : Int64) (files : List FileStatus) :
    changedAt time (sortByChange files) = changedAt time files := by
  have hperm : (changedAt time (sortByChange files)).Perm (changedAt time files) :=
    (List.mergeSort_perm files _).filter _
  have hsublist : (changedAt time files).Sublist (sortByChange files) := by
    apply List.sublist_mergeSort change_trans change_total
    · apply List.pairwise_of_forall_mem_list
      intro a ha b hb
      rw [(mem_changedAt.mp ha).2, (mem_changedAt.mp hb).2]
      exact decide_eq_true (Int64.le_refl time)
    · exact List.filter_sublist
  have hfiltered : (changedAt time files).Sublist (changedAt time (sortByChange files)) := by
    have hidem : changedAt time (changedAt time files) = changedAt time files := by
      simp [changedAt]
    rw [← hidem]
    exact hsublist.filter _
  exact (hfiltered.eq_of_length hperm.length_eq.symm).symm

theorem sortByChange_eq_iff : sortByChange others = sortByChange files ↔
    ∀ time, changedAt time others = changedAt time files := by
  constructor
  · intro h time
    rw [← changedAt_sortByChange, h, changedAt_sortByChange]
  · intro h
    apply (inOrder_sortByChange others).eq_of_changedAt_eq (inOrder_sortByChange files)
    intro time
    rw [changedAt_sortByChange, changedAt_sortByChange, h]

/-! ### Plans -/

theorem flatten_plan (limit : UInt64) (files : List FileStatus) :
    (plan limit files).flatten = sortByChange files :=
  flatten_packAfter limit 0 (sortByChange files)

/-- A plan holds the files by the time of their last change, those of one time as they are listed.
Another listing of the files has this plan if and only if it lists the files of each time alike. -/
theorem plan_stable (limit : UInt64) (files : List FileStatus) :
    (plan limit files).flatten.Perm files ∧ InOrder (plan limit files).flatten ∧
      (∀ time, changedAt time (plan limit files).flatten = changedAt time files) ∧
      ∀ others, plan limit others = plan limit files ↔
        ∀ time, changedAt time others = changedAt time files := by
  refine ⟨perm_flatten_plan limit files, ?_, ?_, ?_⟩
  · rw [flatten_plan]
    exact inOrder_sortByChange files
  · intro time
    rw [flatten_plan, changedAt_sortByChange]
  · intro others
    constructor
    · intro h time
      rw [← changedAt_sortByChange time others, ← flatten_plan limit others, h, flatten_plan,
        changedAt_sortByChange]
    · intro h
      rw [plan, plan, sortByChange_eq_iff.mpr h]

end Splits

end PartitionPruning
