import PartitionPruning.Proofs.Tree.Fields
import PartitionPruning.Proofs.Tree.Parts
import PartitionPruning.Tree.Replace

/-! Replacing nodes acts on a tree part by part: what a node without the test becomes is settled by
what its items or its values become, whether they change or not. Proofs about it go by induction on
the same parts. -/

namespace PartitionPruning

namespace Node

variable {m : Type → Type} [Monad m] [LawfulMonad m] {p : Node → Bool} {f : Node → m Node}

/-- Induction along replacing, which does not go on below a node that satisfies the test. -/
@[elab_as_elim]
theorem replaceInduction {motive : Node → Prop} (p : Node → Bool)
    (replaced : ∀ n, p n = true → motive n)
    (scalar : ∀ n, p n = false → n.isScalar = true → motive n)
    (array : ∀ xs, p (array xs) = false → (∀ x ∈ xs, motive x) → motive (array xs))
    (object : ∀ fs : Fields Node, p (object fs) = false → (∀ e ∈ fs, motive e.2) →
      motive (object fs)) (n : Node) : motive n := by
  induction n using childInduction with
  | scalar n hscalar =>
    cases hn : p n with
    | true => exact replaced n hn
    | false => exact scalar n hn hscalar
  | array xs ih =>
    cases hn : p (.array xs) with
    | true => exact replaced _ hn
    | false => exact array xs hn ih
  | object fs ih =>
    cases hn : p (.object fs) with
    | true => exact replaced _ hn
    | false => exact object fs hn ih

theorem replaceM_of_pos {n : Node} (h : p n = true) : replaceM p f n = f n := by
  unfold replaceM changed?
  simp [h]

theorem replaceM_of_isScalar {n : Node} (h : p n = false) (hn : n.isScalar = true) :
    replaceM p f n = pure n := by
  unfold replaceM changed?
  cases n <;> simp_all [isScalar]

/-- Items that have not changed are the items that replacing gives back. -/
theorem getD_changedItems? (xs : List Node) :
    (fun items => items.getD xs) <$> changedItems? p f xs = xs.mapM (replaceM p f) := by
  induction xs with
  | nil => simp [changedItems?]
  | cons x xs ih =>
    rw [changedItems?, List.mapM_cons, ← ih, replaceM]
    simp only [map_bind, bind_assoc, pure_bind, bind_map_left]
    congr
    funext first
    congr
    funext rest
    cases first <;> cases rest <;> simp

theorem getD_changedFields? (fs : Fields Node) :
    (fun fields => fields.getD fs) <$> changedFields? p f fs =
      fs.mapM fun e => (e.1, ·) <$> replaceM p f e.2 := by
  induction fs with
  | nil => simp [changedFields?]
  | cons e fs ih =>
    obtain ⟨key, x⟩ := e
    rw [changedFields?, List.mapM_cons, ← ih, replaceM]
    simp only [map_bind, bind_assoc, pure_bind, bind_map_left, map_pure]
    congr
    funext first
    congr
    funext rest
    cases first <;> cases rest <;> simp

theorem replaceM_array {xs : List Node} (h : p (array xs) = false) :
    replaceM p f (array xs) = array <$> xs.mapM (replaceM p f) := by
  rw [← getD_changedItems?, replaceM, changed?, h]
  simp only [Bool.false_eq_true, if_false, bind_assoc, pure_bind, map_eq_pure_bind]
  congr
  funext items
  cases items <;> rfl

theorem replaceM_object {fs : Fields Node} (h : p (object fs) = false) :
    replaceM p f (object fs) = object <$> fs.mapM fun e => (e.1, ·) <$> replaceM p f e.2 := by
  rw [← getD_changedFields?, replaceM, changed?, h]
  simp only [Bool.false_eq_true, if_false, bind_assoc, pure_bind, map_eq_pure_bind]
  congr
  funext fields
  cases fields <;> rfl

/-! ### Replacing that may fail -/

section

variable {ε : Type} {f : Node → Except ε Node} {r : Node}

theorem replaceM_array_eq_ok {xs : List Node} (h : p (array xs) = false)
    (hr : replaceM p f (array xs) = .ok r) :
    ∃ ys, r = array ys ∧ xs.map (replaceM p f) = ys.map .ok := by
  rw [replaceM_array h, map_eq_ok] at hr
  obtain ⟨ys, hys, rfl⟩ := hr
  exact ⟨ys, rfl, mapM_eq_ok.mp hys⟩

theorem replaceM_object_eq_ok {fs : Fields Node} (h : p (object fs) = false)
    (hr : replaceM p f (object fs) = .ok r) :
    ∃ gs, r = object gs ∧ (fs.mapM fun e => (e.1, ·) <$> replaceM p f e.2) = .ok gs := by
  rw [replaceM_object h, map_eq_ok] at hr
  obtain ⟨gs, hgs, rfl⟩ := hr
  exact ⟨gs, rfl, hgs⟩

/-- Replacing fails only where a replacement does. -/
theorem exists_replaceM (hf : ∀ x, p x = true → ∃ y, f x = .ok y) (n : Node) :
    ∃ r, replaceM p f n = .ok r := by
  induction n using replaceInduction p with
  | replaced n hn =>
    rw [replaceM_of_pos hn]
    exact hf n hn
  | scalar n hn hscalar => exact ⟨n, replaceM_of_isScalar hn hscalar⟩
  | array xs hn ih =>
    obtain ⟨ys, hys⟩ := exists_mapM_eq_ok ih
    exact ⟨array ys, by rw [replaceM_array hn, hys]; rfl⟩
  | object fs hn ih =>
    obtain ⟨gs, hgs⟩ : ∃ gs, (fs.mapM fun e => (e.1, ·) <$> replaceM p f e.2) = .ok gs := by
      refine exists_mapM_eq_ok fun e he => ?_
      obtain ⟨y, hy⟩ := ih e he
      exact ⟨(e.1, y), by rw [hy]; rfl⟩
    exact ⟨object gs, by rw [replaceM_object hn, hgs]; rfl⟩

/-- Replacing again changes nothing, if replacing keeps which nodes satisfy the test, and a node
that it has put in is left as it is. -/
theorem replaceM_replaceM (hp : ∀ n r, replaceM p f n = .ok r → p r = p n)
    (hf : ∀ x y, p x = true → f x = .ok y → f y = .ok y) {n : Node}
    (hr : replaceM p f n = .ok r) : replaceM p f r = .ok r := by
  induction n using replaceInduction p generalizing r with
  | replaced n hn =>
    rw [replaceM_of_pos ((hp n r hr).trans hn)]
    rw [replaceM_of_pos hn] at hr
    exact hf n r hn hr
  | scalar n hn hscalar =>
    rw [replaceM_of_isScalar hn hscalar] at hr
    rw [← Except.ok.inj hr]
    exact replaceM_of_isScalar hn hscalar
  | array xs hn ih =>
    have hkept := (hp _ r hr).trans hn
    obtain ⟨ys, rfl, hys⟩ := replaceM_array_eq_ok hn hr
    have hself : ys.mapM (replaceM p f) = .ok ys := by
      refine mapM_eq_ok_self_iff.mpr fun y hy => ?_
      obtain ⟨x, hx, hxy⟩ := exists_of_mem_of_mapM_eq_ok (mapM_eq_ok.mpr hys) hy
      exact ih x hx hxy
    rw [replaceM_array hkept, hself]
    rfl
  | object fs hn ih =>
    have hkept := (hp _ r hr).trans hn
    obtain ⟨gs, rfl, hgs⟩ := replaceM_object_eq_ok hn hr
    have hself : (gs.mapM fun e => (e.1, ·) <$> replaceM p f e.2) = .ok gs := by
      refine mapM_eq_ok_self_iff.mpr fun e he => ?_
      obtain ⟨d, hd, hde⟩ := exists_of_mem_of_mapM_eq_ok hgs he
      obtain ⟨v, hv, rfl⟩ := map_eq_ok.mp hde
      rw [ih d hd hv]
      rfl
    rw [replaceM_object hkept, hself]
    rfl

end

end Node

end PartitionPruning
