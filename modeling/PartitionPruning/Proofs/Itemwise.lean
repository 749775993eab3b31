import Mathlib.Data.List.Forall2
import PartitionPruning.Proofs.Failure

/-! Lists related item by item: by what functions make of their items, and by computations that have
made the one list of the other. -/

namespace PartitionPruning

theorem map_eq_map_iff_forall₂ {α β γ : Type} {f : α → γ} {g : β → γ} {xs : List α}
    {ys : List β} : xs.map f = ys.map g ↔ List.Forall₂ (fun x y => f x = g y) xs ys := by
  rw [← List.forall₂_eq_eq_eq, List.forall₂_map_left_iff, List.forall₂_map_right_iff]

theorem mapM_eq_ok_iff_forall₂ {ε α β : Type} {f : α → Except ε β} {xs : List α} {ys : List β} :
    xs.mapM f = .ok ys ↔ List.Forall₂ (fun x y => f x = .ok y) xs ys := by
  rw [mapM_eq_ok, map_eq_map_iff_forall₂]

/-- A computation on every item makes, of the items that a test holds of, the results that another
test holds of. -/
theorem mapM_filter_eq_ok {ε α β : Type} {f : α → Except ε β} {q : α → Bool} {r : β → Bool}
    (hf : ∀ x y, f x = .ok y → r y = q x) {xs : List α} {ys : List β} (h : xs.mapM f = .ok ys) :
    (xs.filter q).mapM f = .ok (ys.filter r) := by
  rw [mapM_eq_ok_iff_forall₂] at h ⊢
  refine List.rel_filter (fun x y hxy => ?_) h
  show q x = true ↔ r y = true
  rw [hf x y hxy]

end PartitionPruning
