import PartitionPruning.Tree.Node

/-! Replacing the nodes of a tree that satisfy a test, from the root down and in document order. A
part of the tree without such a node is not built anew, and below one that satisfies the test
nothing is looked at. What a node is replaced by may be found with effects. -/

namespace PartitionPruning

namespace Node

section

variable {m : Type → Type} [Monad m]

mutual

/-- The changed node, or nothing where no part of it satisfies `p`. -/
def changed? (p : Node → Bool) (f : Node → m Node) (n : Node) : m (Option Node) :=
  if p n then some <$> f n
  else match n with
    | array xs => do
      let items ← changedItems? p f xs
      pure (items.map array)
    | object fs => do
      let fields ← changedFields? p f fs
      pure (fields.map object)
    | _ => pure none

def changedItems? (p : Node → Bool) (f : Node → m Node) : List Node → m (Option (List Node))
  | [] => pure none
  | x :: xs => do
    let first ← changed? p f x
    let rest ← changedItems? p f xs
    match first, rest with
    | none, none => pure none
    | _, _ => pure (some (first.getD x :: rest.getD xs))

def changedFields? (p : Node → Bool) (f : Node → m Node) :
    List (String × Node) → m (Option (List (String × Node)))
  | [] => pure none
  | (key, x) :: fs => do
    let first ← changed? p f x
    let rest ← changedFields? p f fs
    match first, rest with
    | none, none => pure none
    | _, _ => pure (some ((key, first.getD x) :: rest.getD fs))

end

/-- Replaces every node `x` that satisfies `p`, and has none above it that does, by `f x`. -/
def replaceM (p : Node → Bool) (f : Node → m Node) (n : Node) : m Node := do
  let result ← changed? p f n
  pure (result.getD n)

end

def replace (p : Node → Bool) (f : Node → Node) (n : Node) : Node :=
  Id.run (replaceM p (fun x => pure (f x)) n)

end Node

end PartitionPruning
