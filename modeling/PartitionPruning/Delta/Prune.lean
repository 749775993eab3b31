import PartitionPruning.Delta.Predicate
import PartitionPruning.Listing.File
import PartitionPruning.Statement

/-! Pruning the files of a Delta table, whose log knows the partition values of every file. -/

namespace PartitionPruning

/-- The predicate to scan with, none to scan everything: without a filter, with an empty one, and
with one that has no form as a predicate. -/
def scanPredicate? (filter : Option Node) : Except Failure (Option DeltaPredicate) :=
  match filter.filter fun f => !f.isEmptyAnd with
  | none => .ok none
  | some filter =>
    match DeltaPredicate.ofNode filter with
    | .ok predicate => .ok (some predicate)
    | .error (.fault (.unsupported _)) => .ok none
    | .error failure => .error failure

section

variable {m : Type → Type} [Monad m]

/-- Scans the log of a table for the files that a predicate may hold of. -/
abbrev DeltaScan (m : Type → Type) :=
  String → Option DeltaPredicate → m (Except Fault (List FileStatus))

/-- The files of a table that may hold rows of a filter. -/
def pruneDelta (scan : DeltaScan m) (base : String) (filter : Option Node) :
    m (Except Failure (List FileStatus)) := do
  match scanPredicate? filter with
  | .error failure => pure (.error failure)
  | .ok predicate =>
    match ← scan base predicate with
    | .ok files => pure (.ok files)
    | .error fault => pure (.error (.fault fault))

def pruneDeltaSelect (scan : DeltaScan m) (base : String) (select : Node) :
    m (Except Failure (List FileStatus)) :=
  pruneDelta scan base select.whereClause?

end

end PartitionPruning
