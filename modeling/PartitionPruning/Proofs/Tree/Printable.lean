import PartitionPruning.Proofs.Tree.DistinctKeys

/-! Trees that come back from their text: their numbers are integers, no object has a key twice, and
they are nested no deeper than text is read. -/

namespace PartitionPruning

namespace Node

/-! ### Trees without floats -/

def isFloat : Node → Bool
  | .number (.float _) => true
  | _ => false

/-- All numbers of the tree are integers. -/
def NoFloats (n : Node) : Prop := ∀ t ∈ n.parts, t.isFloat = false

instance (n : Node) : Decidable n.NoFloats := inferInstanceAs (Decidable (∀ t ∈ n.parts, _))

theorem noFloats_array_iff {xs : List Node} : (array xs).NoFloats ↔ ∀ x ∈ xs, x.NoFloats :=
  forall_parts_array_iff.trans (and_iff_right rfl)

theorem noFloats_object_iff {fs : Fields Node} :
    (object fs).NoFloats ↔ ∀ e ∈ fs, e.2.NoFloats :=
  forall_parts_object_iff.trans (and_iff_right rfl)

/-! ### Depth -/

mutual

/-- The most arrays and objects around any part of the tree, itself among them. -/
def depth : Node → Nat
  | array xs => itemsDepth xs + 1
  | object fs => fieldsDepth fs + 1
  | null | bool _ | .number _ | string _ => 0

def itemsDepth : List Node → Nat
  | [] => 0
  | x :: xs => max (depth x) (itemsDepth xs)

def fieldsDepth : List (String × Node) → Nat
  | [] => 0
  | (_, v) :: fs => max (depth v) (fieldsDepth fs)

end

theorem itemsDepth_le_iff {k : Nat} {xs : List Node} :
    itemsDepth xs ≤ k ↔ ∀ x ∈ xs, x.depth ≤ k := by
  induction xs with
  | nil => simp [itemsDepth]
  | cons x xs ih => rw [itemsDepth, Nat.max_le, ih, List.forall_mem_cons]

theorem fieldsDepth_le_iff {k : Nat} {fs : Fields Node} :
    fieldsDepth fs ≤ k ↔ ∀ e ∈ fs, e.2.depth ≤ k := by
  induction fs with
  | nil => simp [fieldsDepth]
  | cons f fs ih => rw [fieldsDepth, Nat.max_le, ih, List.forall_mem_cons]

theorem depth_array_le_iff {k : Nat} {xs : List Node} :
    (array xs).depth ≤ k + 1 ↔ ∀ x ∈ xs, x.depth ≤ k := by
  rw [depth, Nat.add_le_add_iff_right, itemsDepth_le_iff]

theorem depth_object_le_iff {k : Nat} {fs : Fields Node} :
    (object fs).depth ≤ k + 1 ↔ ∀ e ∈ fs, e.2.depth ≤ k := by
  rw [depth, Nat.add_le_add_iff_right, fieldsDepth_le_iff]

/-! ### Trees that come back -/

structure Printable (limit : Nat) (n : Node) : Prop where
  noFloats : n.NoFloats
  distinctKeys : n.DistinctKeys
  depth_le : n.depth ≤ limit

theorem Printable.mono {n : Node} {limit limit' : Nat} (h : n.Printable limit)
    (hle : limit ≤ limit') : n.Printable limit' :=
  ⟨h.noFloats, h.distinctKeys, Nat.le_trans h.depth_le hle⟩

theorem Printable.isScalar {n : Node} (h : n.Printable 0) : n.isScalar = true := by
  cases n with
  | array xs => exact absurd h.depth_le (Nat.not_succ_le_zero _)
  | object fs => exact absurd h.depth_le (Nat.not_succ_le_zero _)
  | _ => rfl

theorem printable_array_iff {limit : Nat} {xs : List Node} :
    (array xs).Printable (limit + 1) ↔ ∀ x ∈ xs, x.Printable limit := by
  constructor
  · rintro ⟨hfloats, hkeys, hdepth⟩ x hx
    exact ⟨noFloats_array_iff.mp hfloats x hx, distinctKeys_array_iff.mp hkeys x hx,
      depth_array_le_iff.mp hdepth x hx⟩
  · intro h
    exact ⟨noFloats_array_iff.mpr fun x hx => (h x hx).noFloats,
      distinctKeys_array_iff.mpr fun x hx => (h x hx).distinctKeys,
      depth_array_le_iff.mpr fun x hx => (h x hx).depth_le⟩

theorem printable_object_iff {limit : Nat} {fs : Fields Node} :
    (object fs).Printable (limit + 1) ↔
      (Fields.keys fs).Nodup ∧ ∀ e ∈ fs, e.2.Printable limit := by
  constructor
  · rintro ⟨hfloats, hkeys, hdepth⟩
    rw [distinctKeys_object_iff] at hkeys
    exact ⟨hkeys.1, fun e he => ⟨noFloats_object_iff.mp hfloats e he, hkeys.2 e he,
      depth_object_le_iff.mp hdepth e he⟩⟩
  · rintro ⟨hkeys, h⟩
    exact ⟨noFloats_object_iff.mpr fun e he => (h e he).noFloats,
      distinctKeys_object_iff.mpr ⟨hkeys, fun e he => (h e he).distinctKeys⟩,
      depth_object_le_iff.mpr fun e he => (h e he).depth_le⟩

end Node

end PartitionPruning
