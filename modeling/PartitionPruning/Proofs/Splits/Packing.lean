import PartitionPruning.Proofs.Splits.Pack

/-! What packing makes, said without packing: groups that go over the limit with their last file
and, but for the last group, do go over it. The sizes are added without a bound, and the files have
only one such grouping. -/

namespace PartitionPruning

namespace Splits

/-- The sum of all sizes, which may be larger than any size. -/
def totalSize : List FileStatus → Nat
  | [] => 0
  | file :: files => file.size.toNat + totalSize files

/-- The groups are the files in order. No group goes over the limit before its last file, and only
the last group may stay under it. -/
structure IsPacking (limit : Nat) (files : List FileStatus) (groups : List (List FileStatus)) :
    Prop where
  flatten : groups.flatten = files
  ne_nil : ∀ group ∈ groups, group ≠ []
  dropLast_le : ∀ group ∈ groups, totalSize group.dropLast ≤ limit
  lt_total : ∀ group ∈ groups.dropLast, limit < totalSize group

theorem isPacking_nil {limit : Nat} : IsPacking limit [] [] :=
  ⟨rfl, by simp, by simp, by simp⟩

/-- The first group goes over the limit, or it holds all files, and the other groups pack the files
after it. -/
theorem isPacking_cons_iff {limit : Nat} {files group : List FileStatus}
    {groups : List (List FileStatus)} :
    IsPacking limit files (group :: groups) ↔
      ∃ rest, files = group ++ rest ∧ group ≠ [] ∧ totalSize group.dropLast ≤ limit ∧
        (limit < totalSize group ∨ rest = []) ∧ IsPacking limit rest groups := by
  constructor
  · intro h
    obtain ⟨hgroup, hgroups⟩ := List.forall_mem_cons.mp h.ne_nil
    obtain ⟨hle, hles⟩ := List.forall_mem_cons.mp h.dropLast_le
    refine ⟨groups.flatten, h.flatten.symm, hgroup, hle, ?_, ⟨rfl, hgroups, hles, ?_⟩⟩
    · cases groups with
      | nil => exact Or.inr rfl
      | cons next groups => exact Or.inl (h.lt_total group List.mem_cons_self)
    · intro other hother
      cases groups with
      | nil => simp at hother
      | cons next groups => exact h.lt_total other (List.mem_cons_of_mem _ hother)
  · rintro ⟨rest, rfl, hgroup, hle, hend, h⟩
    refine ⟨by rw [List.flatten_cons, h.flatten], List.forall_mem_cons.mpr ⟨hgroup, h.ne_nil⟩,
      List.forall_mem_cons.mpr ⟨hle, h.dropLast_le⟩, ?_⟩
    cases groups with
    | nil => simp
    | cons next groups =>
      have hrest : rest ≠ [] := by
        rw [← h.flatten, List.flatten_cons]
        exact List.append_ne_nil_of_left_ne_nil (h.ne_nil next List.mem_cons_self) _
      exact List.forall_mem_cons.mpr ⟨hend.resolve_right hrest, h.lt_total⟩

/-! ### Groups and the running total -/

section

variable {limit total : UInt64} {file : FileStatus}

/-- The running total passes the limit where the sum of the sizes does, although it stops at the
largest number. -/
theorem lt_addSizes_iff (hlimit : limit < 0xFFFFFFFFFFFFFFFF) :
    limit < addSizes total file.size ↔ limit.toNat < total.toNat + file.size.toNat := by
  rw [UInt64.lt_iff_toNat_lt] at hlimit ⊢
  have hmax : (0xFFFFFFFFFFFFFFFF : UInt64).toNat = 2 ^ 64 - 1 := rfl
  rw [toNat_addSizes]
  omega

/-- Up to a limit the running total is the sum of the sizes. -/
theorem toNat_addSizes_of_le (h : total.toNat + file.size.toNat ≤ limit.toNat) :
    (addSizes total file.size).toNat = total.toNat + file.size.toNat := by
  have hmax := limit.toNat_lt
  rw [toNat_addSizes]
  omega

/-- A group that stays under the limit until its last file, and then goes over it or has no file
after it, is the first one that packing makes. -/
theorem packAfter_append (hlimit : limit < 0xFFFFFFFFFFFFFFFF) {group rest : List FileStatus}
    (hgroup : group ≠ []) (hle : total.toNat + totalSize group.dropLast ≤ limit.toNat)
    (hend : limit.toNat < total.toNat + totalSize group ∨ rest = []) :
    packAfter limit total (group ++ rest) = group :: pack limit rest := by
  induction group generalizing total with
  | nil => contradiction
  | cons file group ih =>
    cases group with
    | nil =>
      rcases hend with hlt | rfl
      · exact packAfter_of_lt ((lt_addSizes_iff hlimit).mpr hlt)
      · exact packAfter_singleton
    | cons next group =>
      rw [List.dropLast_cons_of_ne_nil (by simp), totalSize] at hle
      rw [totalSize] at hend
      -- The file is not the last of the group, so the running total is still exact behind it.
      have hunder : total.toNat + file.size.toNat ≤ limit.toNat := by omega
      have hsum := toNat_addSizes_of_le hunder
      exact packAfter_of_not_lt (mt (lt_addSizes_iff hlimit).mp (Nat.not_lt.mpr hunder))
        (ih (by simp) (by omega) (hend.imp_left fun hlt => by omega))

end

/-- Every list of files begins with such a group. -/
theorem exists_group {limit total : Nat} (htotal : total ≤ limit) {files : List FileStatus}
    (hfiles : files ≠ []) :
    ∃ group rest, files = group ++ rest ∧ group ≠ [] ∧ total + totalSize group.dropLast ≤ limit ∧
      (limit < total + totalSize group ∨ rest = []) := by
  induction files generalizing total with
  | nil => contradiction
  | cons file files ih =>
    by_cases hlt : limit < total + file.size.toNat
    · exact ⟨[file], files, rfl, by simp, htotal, Or.inl hlt⟩
    · cases files with
      | nil => exact ⟨[file], [], rfl, by simp, htotal, Or.inr rfl⟩
      | cons next files =>
        obtain ⟨group, rest, hfiles, hgroup, hle, hend⟩ := ih (Nat.le_of_not_lt hlt) (by simp)
        refine ⟨file :: group, rest, by rw [hfiles, List.cons_append], by simp, ?_, ?_⟩
        · rw [List.dropLast_cons_of_ne_nil hgroup, totalSize]
          omega
        · exact hend.imp_left fun hlt => by rw [totalSize]; omega

/-! ### The one packing -/

section

variable {limit : UInt64} {files : List FileStatus}

theorem pack_append (hlimit : limit < 0xFFFFFFFFFFFFFFFF) {group rest : List FileStatus}
    (hgroup : group ≠ []) (hle : totalSize group.dropLast ≤ limit.toNat)
    (hend : limit.toNat < totalSize group ∨ rest = []) :
    pack limit (group ++ rest) = group :: pack limit rest :=
  packAfter_append hlimit hgroup (by simpa using hle) (by simpa using hend)

/-- By recursion on the files that the first group leaves. -/
theorem isPacking_pack (hlimit : limit < 0xFFFFFFFFFFFFFFFF) (files : List FileStatus) :
    IsPacking limit.toNat files (pack limit files) := by
  by_cases hfiles : files = []
  · subst hfiles
    exact isPacking_nil
  · obtain ⟨group, rest, hsplit, hgroup, hle, hend⟩ := exists_group (Nat.zero_le limit.toNat) hfiles
    rw [Nat.zero_add] at hle hend
    have hpack : pack limit files = group :: pack limit rest :=
      hsplit ▸ pack_append hlimit hgroup hle hend
    rw [hpack]
    exact isPacking_cons_iff.mpr ⟨rest, hsplit, hgroup, hle, hend, isPacking_pack hlimit rest⟩
termination_by files.length
decreasing_by
  have hlength := congrArg List.length hsplit
  have hpos := List.length_pos_iff.mpr hgroup
  rw [List.length_append] at hlength
  omega

theorem IsPacking.eq_pack (hlimit : limit < 0xFFFFFFFFFFFFFFFF)
    {groups : List (List FileStatus)} (h : IsPacking limit.toNat files groups) :
    groups = pack limit files := by
  induction groups generalizing files with
  | nil => rw [← h.flatten]; rfl
  | cons group groups ih =>
    obtain ⟨rest, rfl, hgroup, hle, hend, hrest⟩ := isPacking_cons_iff.mp h
    rw [pack_append hlimit hgroup hle hend, ih hrest]

/-- Packing makes the only grouping of the files that goes by the limit. -/
theorem eq_pack_iff (hlimit : limit < 0xFFFFFFFFFFFFFFFF) (files : List FileStatus)
    (groups : List (List FileStatus)) :
    groups = pack limit files ↔ IsPacking limit.toNat files groups := by
  constructor
  · rintro rfl
    exact isPacking_pack hlimit files
  · intro h
    exact h.eq_pack hlimit

end

/-- Groups of files, two of which have the largest size, so that a sum of sizes does not fit. -/
def largestGroups : List (List FileStatus) :=
  [[⟨"a", 0xFFFFFFFFFFFFFFFF, 1⟩], [⟨"b", 7, 2⟩, ⟨"c", 0xFFFFFFFFFFFFFFFF, 3⟩], [⟨"d", 0, 4⟩]]

/-- With the greatest limit that a size can pass, these groups are the packing. -/
theorem eq_pack_iff_largest :
    (0xFFFFFFFFFFFFFFFE : UInt64) < 0xFFFFFFFFFFFFFFFF ∧
      (largestGroups = pack 0xFFFFFFFFFFFFFFFE largestGroups.flatten ↔
        IsPacking 0xFFFFFFFFFFFFFFFE largestGroups.flatten largestGroups) ∧
      IsPacking 0xFFFFFFFFFFFFFFFE largestGroups.flatten largestGroups := by
  have hlimit : (0xFFFFFFFFFFFFFFFE : UInt64) < 0xFFFFFFFFFFFFFFFF := by decide
  have h := eq_pack_iff hlimit largestGroups.flatten largestGroups
  exact ⟨hlimit, h, h.mp (by decide)⟩

end Splits

end PartitionPruning
