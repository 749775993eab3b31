import PartitionPruning.Proofs.Splits.Pack

/-! Packing with two limits, file by file. The run with the larger limit stays ahead: it has ended
no more groups than the other one, and where it has ended as many, its open group is not fuller. So
its first groups hold at least as many files, and it makes no more groups. -/

namespace PartitionPruning

namespace Splits

theorem addSizes_le_addSizes {a b : UInt64} (h : a ≤ b) (size : UInt64) :
    addSizes a size ≤ addSizes b size := by
  rw [UInt64.le_iff_toNat_le] at h ⊢
  rw [toNat_addSizes, toNat_addSizes]
  omega

/-- Where a run is: the groups that it may still fill, the open one among them, and the size of the
open one. -/
structure Progress where
  groups : Nat
  total : UInt64

namespace Progress

/-- The next file goes into the open group, and may end it. -/
def step (limit size : UInt64) (p : Progress) : Progress :=
  if limit < addSizes p.total size then ⟨p.groups - 1, 0⟩
  else ⟨p.groups, addSizes p.total size⟩

/-- The number of files that go into the groups of a run. -/
def held (limit : UInt64) (p : Progress) (files : List FileStatus) : Nat :=
  ((packAfter limit p.total files).take p.groups).flatten.length

/-- The second run may fill more groups, or as many and its open one is not fuller. -/
def Behind (p q : Progress) : Prop :=
  p.groups < q.groups ∨ p.groups = q.groups ∧ q.total ≤ p.total

variable {m n limit : UInt64} {p q : Progress}

/-- One file leaves the run with the larger limit ahead. -/
theorem Behind.step (hlimit : m ≤ n) (h : p.Behind q) (hp : 0 < p.groups) (size : UInt64) :
    (p.step m size).Behind (q.step n size) := by
  unfold Progress.step
  by_cases hq : n < addSizes q.total size
  · rw [if_pos hq]
    by_cases hpm : m < addSizes p.total size
    · rw [if_pos hpm]
      rcases h with hlt | ⟨heq, -⟩
      · exact Or.inl (by dsimp only; omega)
      · exact Or.inr ⟨by dsimp only; omega, UInt64.le_refl _⟩
    · rw [if_neg hpm]
      rcases h with hlt | ⟨-, hle⟩
      · by_cases hnext : p.groups < q.groups - 1
        · exact Or.inl hnext
        · exact Or.inr ⟨by dsimp only; omega, UInt64.zero_le⟩
      · -- With as many groups left, the run with the smaller limit ends its group first.
        have hsum := addSizes_le_addSizes hle size
        exact absurd (UInt64.lt_of_le_of_lt hlimit (UInt64.lt_of_lt_of_le hq hsum)) hpm
  · rw [if_neg hq]
    by_cases hpm : m < addSizes p.total size
    · rw [if_pos hpm]
      exact Or.inl (by rcases h with hlt | ⟨heq, -⟩ <;> dsimp only <;> omega)
    · rw [if_neg hpm]
      exact h.imp_right fun ⟨heq, hle⟩ => ⟨heq, addSizes_le_addSizes hle size⟩

theorem held_nil : held limit p [] = 0 := by
  simp [held, packAfter]

theorem held_of_no_groups (h : p.groups = 0) (files : List FileStatus) :
    held limit p files = 0 := by
  simp [held, h]

theorem held_cons (h : 0 < p.groups) (file : FileStatus) (files : List FileStatus) :
    held limit p (file :: files) = held limit (p.step limit file.size) files + 1 := by
  obtain ⟨i, hi⟩ := Nat.exists_eq_succ_of_ne_zero (Nat.ne_of_gt h)
  unfold held Progress.step
  by_cases hlt : limit < addSizes p.total file.size
  · rw [if_pos hlt, packAfter_of_lt hlt, hi]
    simp
  · rw [if_neg hlt, hi]
    dsimp only
    cases hgroups : packAfter limit (addSizes p.total file.size) files with
    | nil =>
      have hnil := flatten_packAfter limit (addSizes p.total file.size) files
      rw [hgroups] at hnil
      rw [← hnil, List.flatten_nil, packAfter_singleton]
      simp
    | cons group groups =>
      rw [packAfter_of_not_lt hlt hgroups]
      simp

/-- A run that is ahead of another one, with a limit that is no smaller, stays ahead. -/
theorem Behind.held_le (hlimit : m ≤ n) (h : p.Behind q) (files : List FileStatus) :
    held m p files ≤ held n q files := by
  induction files generalizing p q with
  | nil => exact Nat.le_of_eq (held_nil.trans held_nil.symm)
  | cons file files ih =>
    by_cases hp : p.groups = 0
    · rw [held_of_no_groups hp]
      exact Nat.zero_le _
    · have hpos : 0 < p.groups := Nat.pos_of_ne_zero hp
      have hqpos : 0 < q.groups := by
        rcases h with hlt | ⟨heq, -⟩ <;> omega
      rw [held_cons hpos, held_cons hqpos]
      exact Nat.succ_le_succ (ih (h.step hlimit hpos file.size))

end Progress

/-- Groups that hold all files are all groups, since none is empty. -/
theorem length_le_of_take {groups : List (List FileStatus)} {k : Nat}
    (hne : ∀ group ∈ groups, group ≠ [])
    (h : groups.flatten.length ≤ (groups.take k).flatten.length) : groups.length ≤ k := by
  have hsplit : (groups.take k).flatten.length + (groups.drop k).flatten.length =
      groups.flatten.length := by
    rw [← List.length_append, ← List.flatten_append, List.take_append_drop]
  have hnil : (groups.drop k).flatten = [] := List.eq_nil_of_length_eq_zero (by omega)
  cases hdrop : groups.drop k with
  | nil => exact List.drop_eq_nil_iff.mp hdrop
  | cons group rest =>
    have hgroup : group ∈ groups.drop k := by rw [hdrop]; exact List.mem_cons_self
    exact absurd (List.flatten_eq_nil_iff.mp hnil group hgroup)
      (hne group (List.mem_of_mem_drop hgroup))

/-- With a larger limit the first groups hold at least as many files, and there are no more groups.
-/
theorem pack_stays_ahead {m n : UInt64} (hlimit : m ≤ n) (files : List FileStatus) :
    (pack n files).length ≤ (pack m files).length ∧
      ∀ i, ((pack m files).take i).flatten.length ≤ ((pack n files).take i).flatten.length := by
  have hahead (i : Nat) :
      ((pack m files).take i).flatten.length ≤ ((pack n files).take i).flatten.length :=
    Progress.Behind.held_le (p := ⟨i, 0⟩) (q := ⟨i, 0⟩) hlimit
      (Or.inr ⟨rfl, UInt64.le_refl _⟩) files
  refine ⟨length_le_of_take (fun _ => ne_nil_of_mem_packAfter) ?_, hahead⟩
  calc (pack n files).flatten.length = (pack m files).flatten.length := by
        rw [pack, pack, flatten_packAfter, flatten_packAfter]
    _ = ((pack m files).take (pack m files).length).flatten.length := by rw [List.take_length]
    _ ≤ ((pack n files).take (pack m files).length).flatten.length := hahead _

/-- Files, one of them empty, of which `c` ends a group only with the smaller of the limits `2` and
`3`. -/
def driftingFiles : List FileStatus :=
  [⟨"a", 2, 1⟩, ⟨"b", 0, 2⟩, ⟨"c", 1, 3⟩, ⟨"d", 3, 4⟩, ⟨"e", 2, 5⟩]

/-- The larger limit goes on past `c`: its first group ends where the second one of the other does.
-/
theorem pack_stays_ahead_drifting :
    (2 : UInt64) ≤ 3 ∧
      ((pack 2 driftingFiles).map List.length = [3, 1, 1] ∧
        (pack 3 driftingFiles).map List.length = [4, 1]) ∧
      (pack 3 driftingFiles).length ≤ (pack 2 driftingFiles).length ∧
      ∀ i, ((pack 2 driftingFiles).take i).flatten.length ≤
        ((pack 3 driftingFiles).take i).flatten.length := by
  have hlimit : (2 : UInt64) ≤ 3 := by decide
  exact ⟨hlimit, by decide, pack_stays_ahead hlimit driftingFiles⟩

end Splits

end PartitionPruning
