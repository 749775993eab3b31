import PartitionPruning.Proofs.Expr.Abort

/-! A tree without a decimal type of more places than decimals have holds no constant that could end
its evaluation, so it has an answer on every row. -/

namespace PartitionPruning

namespace Node

/-- Every decimal type in the tree has at most as many places as decimals have. -/
def ScalesFit (n : Node) : Prop :=
  ∀ t ∈ n.parts, ∀ width scale,
    DataType.ofTypeNode t = .ok (.scalar (.decimal width scale)) → scale.toNat ≤ maxScale

theorem scalesFit_iff {n : Node} : n.ScalesFit ↔ ∀ t ∈ n.parts,
    (match DataType.ofTypeNode t with
      | .ok (.scalar (.decimal _ scale)) => decide (scale.toNat ≤ maxScale)
      | _ => true) = true := by
  refine forall₂_congr fun t _ => ?_
  split
  · rename_i h; simp [h]
  · rename_i hne
    exact iff_of_true (fun width scale h => absurd h (hne width scale)) rfl

instance (n : Node) : Decidable n.ScalesFit := decidable_of_iff _ scalesFit_iff.symm

namespace ScalesFit

variable {n : Node}

theorem itemsOf (h : n.ScalesFit) {key : String} {v : Node} (hv : v ∈ n.itemsOf key) :
    v.ScalesFit :=
  fun t ht => h t (mem_parts_of_mem_itemsOf hv ht)

theorem not_hasTooManyPlaces (h : n.ScalesFit) {c : Node} (hc : c ∈ n.parts) :
    ¬c.HasTooManyPlaces := by
  rintro ⟨payload, type, -, -, width, scale, hpayload, -, htype, hof, -, -, hscale⟩
  have hpart : type ∈ c.parts :=
    mem_parts_of_require hpayload (mem_parts_of_require htype type.self_mem_parts)
  have hfits := h type (mem_parts_of_mem_parts hc hpart) width scale hof
  omega

/-- A tree whose decimal types all fit has an answer on every row. -/
theorem eval_ne_aborted (h : n.ScalesFit) (row : Row) : n.eval row ≠ .aborted := by
  intro hended
  obtain ⟨c, hpart, -, hc⟩ := eval_eq_aborted_iff.mp hended
  exact h.not_hasTooManyPlaces hpart hc

end ScalesFit

end Node

end PartitionPruning
