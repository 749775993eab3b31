import PartitionPruning.Listing.File

/-! Splits: groups of files that are read together. -/

namespace PartitionPruning

namespace Splits

/-- The sum, or the largest number if it is larger. -/
def addSizes (a b : UInt64) : UInt64 :=
  if a.toNat + b.toNat < 2 ^ 64 then a + b else 0xFFFFFFFFFFFFFFFF

/-- The groups of files, in order, where the first group already holds `total` bytes. A group ends
with the file that brings it over `limit`. -/
def packAfter (limit : UInt64) : UInt64 → List FileStatus → List (List FileStatus)
  | _, [] => []
  | total, file :: files =>
    if limit < addSizes total file.size then [file] :: packAfter limit 0 files
    else match packAfter limit (addSizes total file.size) files with
      | [] => [[file]]
      | group :: groups => (file :: group) :: groups

def pack (limit : UInt64) (files : List FileStatus) : List (List FileStatus) :=
  packAfter limit 0 files

/-- Files in the order of their last change; those that changed together stay in order. -/
def sortByChange (files : List FileStatus) : List FileStatus :=
  files.mergeSort fun a b => decide (a.lastModified ≤ b.lastModified)

def plan (limit : UInt64) (files : List FileStatus) : List (List FileStatus) :=
  pack limit (sortByChange files)

end Splits

end PartitionPruning
