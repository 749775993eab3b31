import Mathlib.Data.List.Nodup
import PartitionPruning.Proofs.Tree.Calls
import PartitionPruning.Proofs.Tree.Place
import PartitionPruning.Proofs.Tree.Search

/-! Where a search finds nodes, and where replacing hands nodes to its function. A search goes on to
some of the fields of an object, in an order of its own, and passes over the array of `children`;
replacing goes through all items and all fields. If only objects satisfy the test, each node that is
found is also handed over. -/

namespace PartitionPruning

theorem Fields.getElem?_idxOf {α : Type} {fs : Fields α} {key : String} {v : α}
    (h : get? fs key = some v) : fs[(keys fs).idxOf key]? = some (key, v) := by
  induction fs with
  | nil => contradiction
  | cons e fs ih =>
    obtain ⟨k, w⟩ := e
    rw [keys_cons, List.idxOf_cons]
    by_cases hk : k = key
    · rw [get?, if_pos hk] at h
      rw [hk, beq_self_eq_true, Option.some.inj h]
      rfl
    · rw [get?, if_neg hk] at h
      rw [beq_false_of_ne hk]
      exact ih h

namespace Node

/-! ### The way of a search -/

/-- The place of the value that a key is looked up to. -/
def fieldPlace (fs : Fields Node) (key : String) : Place := [(Fields.keys fs).idxOf key]

theorem fieldPlace_spec {fs : Fields Node} {key : String} {v : Node}
    (h : Fields.get? fs key = some v) :
    ∃ i, fieldPlace fs key = [i] ∧ fs[i]? = some (key, v) :=
  ⟨_, rfl, Fields.getElem?_idxOf h⟩

/-- The nodes a search goes on to, with their places. -/
def searchSpots : Node → List Spot
  | array xs => spotsFrom 0 xs
  | object fs =>
    match Fields.get? fs "children" with
    | some (array xs) => (spotsFrom 0 xs).map (Spot.under (fieldPlace fs "children"))
    | some null => []
    | some other => [⟨fieldPlace fs "children", other⟩]
    | none =>
      match Fields.get? fs "child" with
      | some child => [⟨fieldPlace fs "child", child⟩]
      | none =>
        match Fields.get? fs "left", Fields.get? fs "right" with
        | some left, some right => [⟨fieldPlace fs "left", left⟩, ⟨fieldPlace fs "right", right⟩]
        | _, _ => spotsFrom 0 (Fields.values fs)
  | _ => []

theorem map_node_searchSpots (n : Node) : n.searchSpots.map Spot.node = n.searchChildren := by
  cases n with
  | array xs => exact map_node_spotsFrom 0 xs
  | object fs =>
    simp only [searchSpots, searchChildren]
    cases Fields.get? fs "children" with
    | some v =>
      cases v with
      | array xs =>
        simp only [List.map_map]
        exact map_node_spotsFrom 0 xs
      | _ => rfl
    | none =>
      cases Fields.get? fs "child" with
      | some child => rfl
      | none =>
        cases Fields.get? fs "left" with
        | none => exact map_node_spotsFrom 0 _
        | some left =>
          cases Fields.get? fs "right" with
          | none => exact map_node_spotsFrom 0 _
          | some right => rfl
  | _ => rfl

/-- The place is that of a child, or of an item of a child that is an array. -/
def IsNear (n : Node) (s : Spot) : Prop :=
  (∃ i, s.place = [i] ∧ n.children[i]? = some s.node) ∨
    ∃ i j xs, s.place = [i, j] ∧ n.children[i]? = some (array xs) ∧ xs[j]? = some s.node

theorem isNear_of_mem_spotsFrom {n : Node} {s : Spot} (h : s ∈ spotsFrom 0 n.children) :
    n.IsNear s :=
  Or.inl (mem_spotsFrom_zero_iff.mp h)

theorem getElem?_children {fs : Fields Node} {i : Nat} {key : String} {v : Node}
    (h : fs[i]? = some (key, v)) : (object fs).children[i]? = some v := by
  rw [children, Fields.values, List.getElem?_map, h, Option.map_some]

theorem isNear_of_get? {fs : Fields Node} {key : String} {v : Node}
    (h : Fields.get? fs key = some v) : (object fs).IsNear ⟨fieldPlace fs key, v⟩ := by
  obtain ⟨i, hplace, hi⟩ := fieldPlace_spec h
  exact Or.inl ⟨i, hplace, getElem?_children hi⟩

theorem isNear_of_mem_searchSpots {n : Node} {s : Spot} (h : s ∈ n.searchSpots) : n.IsNear s := by
  unfold searchSpots at h
  split at h
  · exact isNear_of_mem_spotsFrom h
  · rename_i fs
    split at h
    · rename_i xs hchildren
      obtain ⟨t, ht, rfl⟩ := List.mem_map.mp h
      obtain ⟨j, hplace, hj⟩ := mem_spotsFrom_zero_iff.mp ht
      obtain ⟨i, hi, hchild⟩ := fieldPlace_spec hchildren
      refine Or.inr ⟨i, j, xs, ?_, getElem?_children hchild, hj⟩
      rw [Spot.under, hi, hplace]
      rfl
    · contradiction
    · rename_i hchildren
      exact List.mem_singleton.mp h ▸ isNear_of_get? hchildren
    · split at h
      · rename_i hchild
        exact List.mem_singleton.mp h ▸ isNear_of_get? hchild
      · split at h
        · rename_i hleft hright
          rcases List.mem_cons.mp h with rfl | h
          · exact isNear_of_get? hleft
          · exact List.mem_singleton.mp h ▸ isNear_of_get? hright
        · exact isNear_of_mem_spotsFrom h
  · contradiction

theorem IsNear.at? {n : Node} {s : Spot} (h : n.IsNear s) :
    s.place ≠ [] ∧ n.at? s.place = some s.node := by
  rcases h with ⟨i, hplace, hi⟩ | ⟨i, j, xs, hplace, hi, hj⟩
  · rw [hplace, at?_singleton]
    exact ⟨List.cons_ne_nil _ _, hi⟩
  · rw [hplace, Node.at?, hi]
    exact ⟨List.cons_ne_nil _ _, (at?_singleton (array xs) j).trans hj⟩

/-- Above such a place there is the node itself, and an array at most. -/
theorem IsNear.clear {p : Node → Bool} {n : Node} {s : Spot} (h : n.IsNear s)
    (hp : ∀ xs, p (array xs) = false) (hn : p n = false) : Clear p n s.place := by
  rcases h with ⟨i, hplace, hi⟩ | ⟨i, j, xs, hplace, hi, hj⟩
  · rw [hplace, clear_cons_iff hi]
    exact ⟨hn, clear_nil⟩
  · rw [hplace, clear_cons_iff hi, clear_cons_iff (n := array xs) hj]
    exact ⟨hn, hp xs, clear_nil⟩

theorem pairwise_searchSpots (n : Node) :
    n.searchSpots.Pairwise fun s t => Place.Apart s.place t.place := by
  unfold searchSpots
  split
  · exact pairwise_spotsFrom 0 _
  · rename_i fs
    split
    · rw [List.pairwise_map]
      exact (pairwise_spotsFrom 0 _).imp fun h => h.append_left _
    · exact .nil
    · exact List.pairwise_singleton _ _
    · split
      · exact List.pairwise_singleton _ _
      · split
        · rename_i hleft hright
          obtain ⟨i, hi, hleft⟩ := fieldPlace_spec hleft
          obtain ⟨j, hj, hright⟩ := fieldPlace_spec hright
          -- one place would have both keys
          have hne : i ≠ j := fun heq => by
            rw [heq, hright] at hleft
            exact absurd (Prod.mk.inj (Option.some.inj hleft)).1 (by decide)
          rw [List.pairwise_pair, hi, hj]
          exact .singleton hne
        · exact pairwise_spotsFrom 0 _
  · exact .nil

/-- The way down of a search. -/
def searchDescent : Descent where
  next := searchSpots
  at?_next _ _ h := (isNear_of_mem_searchSpots h).at?
  pairwise_next := pairwise_searchSpots

/-- What a search finds, and where. -/
def foundSpots (p : Node → Bool) (n : Node) : List Spot := searchDescent.spots p n

variable {p : Node → Bool} {n : Node} {s : Spot}

theorem map_node_foundSpots (p : Node → Bool) (n : Node) :
    (foundSpots p n).map Spot.node = n.find p := by
  refine Descent.map_node_spots (fun n hn => find_of_true hn) (fun n hn => ?_) n
  rw [find_of_false hn, ← map_node_searchSpots]
  rfl

theorem topmostAt_of_mem_foundSpots (hp : ∀ xs, p (array xs) = false) (h : s ∈ foundSpots p n) :
    TopmostAt p n s :=
  Descent.topmostAt_of_mem_spots (fun _ hn _ ht => (isNear_of_mem_searchSpots ht).clear hp hn) h

/-! ### The way of replacing -/

/-- The way down of replacing, to all items and all values. -/
def fullDescent : Descent where
  next n := spotsFrom 0 n.children
  at?_next _ _ h := (isNear_of_mem_spotsFrom h).at?
  pairwise_next n := pairwise_spotsFrom 0 n.children

/-- What replacing hands to its function, and where. -/
def handedSpots (p : Node → Bool) (n : Node) : List Spot := fullDescent.spots p n

/-- What is handed over is what is topmost. -/
theorem mem_handedSpots_iff : s ∈ handedSpots p n ↔ TopmostAt p n s := by
  constructor
  · refine Descent.topmostAt_of_mem_spots fun n hn t ht => ?_
    obtain ⟨i, hplace, hi⟩ := mem_spotsFrom_zero_iff.mp ht
    rw [hplace, clear_cons_iff hi]
    exact ⟨hn, clear_nil⟩
  · intro h
    induction n using Descent.spotInduction fullDescent p generalizing s with
    | found n hn =>
      rw [(topmostAt_iff_of_true hn).mp h, handedSpots, Descent.spots_of_true hn]
      exact List.mem_singleton_self _
    | below n hn ih =>
      obtain ⟨i, child, r, hchild, hr, rfl⟩ := h.exists_child hn
      have hnext : ⟨[i], child⟩ ∈ spotsFrom 0 n.children :=
        mem_spotsFrom_zero_iff.mpr ⟨i, rfl, hchild⟩
      exact (Descent.mem_spots_of_false hn).mpr ⟨_, hnext, r, ih _ hnext hr, rfl⟩

theorem topmost_of_false (h : p n = false) : topmost p n = n.children.flatMap (topmost p) := by
  cases n with
  | array xs => exact topmost_array h
  | object fs => rw [topmost_object h, children, Fields.values, List.flatMap_map]
  | _ => exact topmost_of_isScalar h rfl

theorem map_node_handedSpots (p : Node → Bool) (n : Node) :
    (handedSpots p n).map Spot.node = topmost p n := by
  refine Descent.map_node_spots (fun n hn => topmost_of_pos hn) (fun n hn => ?_) n
  rw [topmost_of_false hn]
  exact congrArg (List.flatMap _) (map_node_spotsFrom 0 n.children).symm

/-! ### Where the results are -/

theorem children_putTopmost (h : p n = false) (rs : List Node) :
    (putTopmost p n rs).children = putItems p n.children rs := by
  cases n with
  | array xs => rw [putTopmost_array h]; rfl
  | object fs => rw [putTopmost_object h]; exact values_putFields fs rs
  | _ => rw [putTopmost_of_isScalar h rfl]; rfl

/-- The results are at these places in the tree that they have been put into. -/
def ResultsAt (spots : List Spot) (n : Node) (rs : List Node) : Prop :=
  spots.map (fun s => n.at? s.place) = rs.map some

/-- By induction on the children that are left, where `before` are those that are done. -/
theorem resultsAt_children (before : List Node) {xs rs : List Node} {r : Node}
    (hresults : ∀ x ∈ xs, ∀ rs, rs.length = (topmost p x).length →
      ResultsAt (handedSpots p x) (putTopmost p x rs) rs)
    (hr : r.children = before ++ putItems p xs rs)
    (hrs : rs.length = (xs.flatMap (topmost p)).length) :
    ResultsAt ((spotsFrom before.length xs).flatMap fun t =>
      (handedSpots p t.node).map (Spot.under t.place)) r rs := by
  induction xs generalizing before rs with
  | nil =>
    obtain rfl := List.length_eq_zero_iff.mp hrs
    rfl
  | cons x xs ih =>
    obtain ⟨hx, hxs⟩ := List.forall_mem_cons.mp hresults
    rw [List.flatMap_cons, List.length_append] at hrs
    have hfirst : (rs.take (topmost p x).length).length = (topmost p x).length := by
      rw [List.length_take, hrs]
      omega
    have hrest : (rs.drop (topmost p x).length).length = (xs.flatMap (topmost p)).length := by
      rw [List.length_drop, hrs]
      omega
    -- the first child has been built from the results that come first
    have hchild : r.children[before.length]? =
        some (putTopmost p x (rs.take (topmost p x).length)) := by
      rw [hr, putItems, List.getElem?_append_right (Nat.le_refl _), Nat.sub_self]
      rfl
    have hhere : ResultsAt ((handedSpots p x).map (Spot.under [before.length])) r
        (rs.take (topmost p x).length) := by
      rw [ResultsAt, List.map_map, ← hx _ hfirst]
      refine List.map_congr_left fun s _ => ?_
      show r.at? (before.length :: s.place) = _
      rw [at?, hchild]
      rfl
    rw [putItems, ← List.singleton_append, ← List.append_assoc] at hr
    have hthere := ih _ hxs hr hrest
    rw [List.length_append, List.length_singleton] at hthere
    rw [ResultsAt, spotsFrom, List.flatMap_cons, List.map_append, hhere, hthere, ← List.map_append,
      List.take_append_drop]

theorem resultsAt_putTopmost (p : Node → Bool) (n : Node) {rs : List Node}
    (hrs : rs.length = (topmost p n).length) :
    ResultsAt (handedSpots p n) (putTopmost p n rs) rs := by
  induction n using Descent.spotInduction fullDescent p generalizing rs with
  | found n hn =>
    rw [topmost_of_pos hn, List.length_singleton] at hrs
    obtain ⟨r, rfl⟩ := List.length_eq_one_iff.mp hrs
    rw [handedSpots, Descent.spots_of_true hn, putTopmost_of_pos hn]
    rfl
  | below n hn ih =>
    rw [topmost_of_false hn] at hrs
    rw [handedSpots, Descent.spots_of_false hn]
    refine resultsAt_children [] (fun x hx rs hrs => ?_) (children_putTopmost hn rs) hrs
    obtain ⟨i, hi⟩ := List.mem_iff_getElem?.mp hx
    exact ih ⟨[i], x⟩ (mem_spotsFrom_zero_iff.mpr ⟨i, rfl, hi⟩) hrs

/-! ### What is found is handed over -/

/-- A search finds the nodes of these spots, in this order. -/
structure Finds (p : Node → Bool) (n : Node) (spots : List Spot) : Prop where
  nodes : spots.map Spot.node = n.find p
  at? : ∀ s ∈ spots, n.at? s.place = some s.node

/-- Replacing hands the nodes of these spots to its function, one after the other, and puts the
results in their places. -/
structure HandsOver (p : Node → Bool) (n : Node) (spots : List Spot) : Prop where
  at? : ∀ s ∈ spots, n.at? s.place = some s.node
  calls : ∀ {m : Type → Type} [Monad m] [LawfulMonad m] (f : Node → m Node),
    replaceM p f n = putTopmost p n <$> (spots.map Spot.node).mapM f
  results : ∀ rs, rs.length = spots.length → ResultsAt spots (putTopmost p n rs) rs

theorem finds_foundSpots (p : Node → Bool) (n : Node) : Finds p n (foundSpots p n) where
  nodes := map_node_foundSpots p n
  at? _ hs := Descent.at?_of_mem_spots hs

theorem handsOver_handedSpots (p : Node → Bool) (n : Node) : HandsOver p n (handedSpots p n) where
  at? _ hs := Descent.at?_of_mem_spots hs
  calls f := by
    rw [map_node_handedSpots]
    exact replaceM_eq_putTopmost n
  results rs hrs := by
    refine resultsAt_putTopmost p n ?_
    rw [hrs, ← map_node_handedSpots, List.length_map]

theorem nodup_place_handedSpots (p : Node → Bool) (n : Node) :
    ((handedSpots p n).map Spot.place).Nodup :=
  List.pairwise_map.mpr ((Descent.pairwise_spots n).imp fun h => h.ne)

/-- Where only objects satisfy the test, replacing hands over all nodes that a search finds, each
from its place exactly once. No node is found below another one. -/
theorem found_handed_once {p : Node → Bool} (hp : ∀ n, p n = true → ∃ fs, n = object fs)
    (n : Node) :
    Finds p n (foundSpots p n) ∧ HandsOver p n (handedSpots p n) ∧
      (∀ s ∈ foundSpots p n,
        s ∈ handedSpots p n ∧ ((handedSpots p n).map Spot.place).count s.place = 1) ∧
      (foundSpots p n).Pairwise fun s t => Place.Apart s.place t.place := by
  have harray (xs : List Node) : p (array xs) = false := by
    cases h : p (array xs) with
    | false => rfl
    | true =>
      obtain ⟨fs, hfs⟩ := hp _ h
      cases hfs
  refine ⟨finds_foundSpots p n, handsOver_handedSpots p n, fun s hs => ?_,
    Descent.pairwise_spots n⟩
  have hmem : s ∈ handedSpots p n :=
    mem_handedSpots_iff.mpr (topmostAt_of_mem_foundSpots harray hs)
  exact ⟨hmem, List.count_eq_one_of_mem (nodup_place_handedSpots p n)
    (List.mem_map_of_mem hmem)⟩

/-- The same node in three fields, of which a search goes to two. -/
def namedOperands : Node :=
  let named := object [("name", null)]
  object [("right", named), ("note", named), ("left", named)]

/-- The operands are found from left to right; they are handed over from first to last, with the
node that is not found between them. -/
theorem found_handed_once_namedOperands :
    (∀ n : Node, (n.field? "name").isSome = true → ∃ fs, n = object fs) ∧
      (foundSpots (fun n => (n.field? "name").isSome) namedOperands).map Spot.place =
        [[2], [0]] ∧
      (handedSpots (fun n => (n.field? "name").isSome) namedOperands).map Spot.place =
        [[0], [1], [2]] ∧
      (foundSpots (fun n => (n.field? "name").isSome) namedOperands).Pairwise fun s t =>
        Place.Apart s.place t.place := by
  have hobject : ∀ n : Node, (n.field? "name").isSome = true → ∃ fs, n = object fs := by
    intro n hn
    cases n with
    | object fs => exact ⟨fs, rfl⟩
    | _ => contradiction
  exact ⟨hobject, by decide +kernel, by decide +kernel,
    (found_handed_once hobject namedOperands).2.2.2⟩

end Node

end PartitionPruning
