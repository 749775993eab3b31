import PartitionPruning.Proofs.Tree.Parts

/-! Places in a tree, and ways down a tree. A way down says which nodes below a node come next. To
look for nodes on it finds each of them at a place of its own, none of them below another one. -/

namespace PartitionPruning

namespace Node

/-! ### Places -/

/-- Which item or which field to take at each step down from the root. -/
abbrev Place := List Nat

/-- The items of an array, the values of an object. -/
def children : Node → List Node
  | array xs => xs
  | object fs => Fields.values fs
  | _ => []

/-- The node at a place. -/
def at? (n : Node) : Place → Option Node
  | [] => some n
  | i :: rest => n.children[i]?.bind fun child => child.at? rest

theorem at?_append (n : Node) (q r : Place) : n.at? (q ++ r) = (n.at? q).bind (·.at? r) := by
  induction q generalizing n with
  | nil => rfl
  | cons i q ih =>
    rw [List.cons_append, at?, at?, Option.bind_assoc]
    exact congrArg _ (funext ih)

theorem at?_singleton (n : Node) (i : Nat) : n.at? [i] = n.children[i]? := by
  rw [at?]
  cases n.children[i]? <;> rfl

theorem sizeOf_lt_of_mem_children {n v : Node} (h : v ∈ n.children) : sizeOf v < sizeOf n := by
  cases n with
  | array xs => exact sizeOf_lt_of_mem_items h
  | object fs =>
    obtain ⟨e, he, rfl⟩ := List.mem_map.mp h
    exact sizeOf_lt_of_mem_fields he
  | _ => contradiction

theorem sizeOf_le_of_at? {n v : Node} {q : Place} (h : n.at? q = some v) : sizeOf v ≤ sizeOf n := by
  induction q generalizing n with
  | nil =>
    obtain rfl := Option.some.inj h
    exact Nat.le_refl _
  | cons i q ih =>
    obtain ⟨child, hchild, h⟩ := Option.bind_eq_some_iff.mp h
    exact Nat.le_trans (ih h)
      (Nat.le_of_lt (sizeOf_lt_of_mem_children (List.mem_of_getElem? hchild)))

theorem sizeOf_lt_of_at? {n v : Node} {q : Place} (hq : q ≠ []) (h : n.at? q = some v) :
    sizeOf v < sizeOf n := by
  cases q with
  | nil => contradiction
  | cons i q =>
    obtain ⟨child, hchild, h⟩ := Option.bind_eq_some_iff.mp h
    exact Nat.lt_of_le_of_lt (sizeOf_le_of_at? h)
      (sizeOf_lt_of_mem_children (List.mem_of_getElem? hchild))

/-- Neither of two places is below the other one, or the same. -/
def Place.Apart (q r : Place) : Prop := ¬ q <+: r ∧ ¬ r <+: q

namespace Place.Apart

variable {q r : Place}

theorem ne (h : Apart q r) : q ≠ r := by
  rintro rfl
  exact h.1 (List.prefix_refl q)

theorem append_append (h : Apart q r) (a b : Place) : Apart (q ++ a) (r ++ b) := by
  have hq : q <+: q ++ a := List.prefix_append q a
  have hr : r <+: r ++ b := List.prefix_append r b
  constructor
  · intro hprefix
    rcases List.prefix_or_prefix_of_prefix (hq.trans hprefix) hr with hqr | hrq
    · exact h.1 hqr
    · exact h.2 hrq
  · intro hprefix
    rcases List.prefix_or_prefix_of_prefix hq (hr.trans hprefix) with hqr | hrq
    · exact h.1 hqr
    · exact h.2 hrq

theorem append_left (place : Place) (h : Apart q r) : Apart (place ++ q) (place ++ r) := by
  unfold Apart
  rw [List.prefix_append_right_inj, List.prefix_append_right_inj]
  exact h

theorem singleton {i j : Nat} (h : i ≠ j) : Apart [i] [j] := by
  simp [Apart, h, Ne.symm h]

end Place.Apart

/-! ### Nodes at places -/

/-- A node and its place in a tree. -/
structure Spot where
  place : Place
  node : Node
  deriving DecidableEq

/-- A spot in the tree at a place, as a spot in the whole tree. -/
def Spot.under (place : Place) (s : Spot) : Spot := ⟨place ++ s.place, s.node⟩

/-- Nodes at the places from `i` on. -/
def spotsFrom (i : Nat) : List Node → List Spot
  | [] => []
  | n :: ns => ⟨[i], n⟩ :: spotsFrom (i + 1) ns

theorem map_node_spotsFrom (i : Nat) (ns : List Node) : (spotsFrom i ns).map Spot.node = ns := by
  induction ns generalizing i with
  | nil => rfl
  | cons n ns ih => rw [spotsFrom, List.map_cons, ih]

theorem mem_spotsFrom_iff {i : Nat} {ns : List Node} {s : Spot} :
    s ∈ spotsFrom i ns ↔ ∃ j, s.place = [i + j] ∧ ns[j]? = some s.node := by
  induction ns generalizing i with
  | nil => simp [spotsFrom]
  | cons n ns ih =>
    rw [spotsFrom, List.mem_cons, ih]
    constructor
    · rintro (rfl | ⟨j, hplace, hnode⟩)
      · exact ⟨0, rfl, rfl⟩
      · exact ⟨j + 1, by rw [hplace, Nat.add_assoc, Nat.add_comm 1], hnode⟩
    · rintro ⟨_ | j, hplace, hnode⟩
      · left
        obtain ⟨place, node⟩ := s
        obtain rfl := Option.some.inj hnode
        exact congrArg (Spot.mk · _) hplace
      · exact Or.inr ⟨j, by rw [hplace, Nat.add_assoc, Nat.add_comm 1], hnode⟩

theorem mem_spotsFrom_zero_iff {ns : List Node} {s : Spot} :
    s ∈ spotsFrom 0 ns ↔ ∃ i, s.place = [i] ∧ ns[i]? = some s.node := by
  simp only [mem_spotsFrom_iff, Nat.zero_add]

theorem pairwise_spotsFrom (i : Nat) (ns : List Node) :
    (spotsFrom i ns).Pairwise fun s t => Place.Apart s.place t.place := by
  induction ns generalizing i with
  | nil => exact .nil
  | cons n ns ih =>
    refine .cons (fun s hs => ?_) (ih (i + 1))
    obtain ⟨j, hplace, -⟩ := mem_spotsFrom_iff.mp hs
    rw [hplace]
    exact .singleton (by omega)

/-! ### Nodes with none above them -/

section

variable {p : Node → Bool} {n v child : Node} {i : Nat} {q r : Place} {s t : Spot}

/-- No node above the place satisfies `p`. -/
def Clear (p : Node → Bool) (n : Node) (place : Place) : Prop :=
  ∀ q r v, place = q ++ r → r ≠ [] → n.at? q = some v → p v = false

theorem clear_nil : Clear p n [] :=
  fun _ _ _ heq hr _ => absurd (List.append_eq_nil_iff.mp heq.symm).2 hr

theorem clear_cons_iff (hchild : n.children[i]? = some child) :
    Clear p n (i :: q) ↔ p n = false ∧ Clear p child q := by
  have hat (q : Place) : n.at? (i :: q) = child.at? q := by rw [at?, hchild, Option.bind_some]
  constructor
  · intro h
    refine ⟨h [] (i :: q) n rfl (List.cons_ne_nil i q) rfl, fun q' r v heq hr hv => ?_⟩
    exact h (i :: q') r v (congrArg (i :: ·) heq) hr ((hat q').trans hv)
  · rintro ⟨hn, h⟩ (_ | ⟨k, q'⟩) r v heq hr hv
    · exact Option.some.inj hv ▸ hn
    · obtain ⟨rfl, hplace⟩ := List.cons.inj heq
      exact h q' r v hplace hr ((hat q').symm.trans hv)

theorem Clear.append (hq : Clear p n q) (hv : n.at? q = some v) (hr : Clear p v r) :
    Clear p n (q ++ r) := by
  induction q generalizing n with
  | nil => exact Option.some.inj hv ▸ hr
  | cons i q ih =>
    obtain ⟨child, hchild, hv⟩ := Option.bind_eq_some_iff.mp hv
    obtain ⟨hn, hq⟩ := (clear_cons_iff hchild).mp hq
    exact (clear_cons_iff hchild).mpr ⟨hn, ih hq hv⟩

/-- A node that satisfies `p` stands at the place, and no node above it satisfies `p`. -/
structure TopmostAt (p : Node → Bool) (n : Node) (s : Spot) : Prop where
  at? : n.at? s.place = some s.node
  holds : p s.node = true
  above : Clear p n s.place

/-- What is topmost below a node at a place is topmost in the whole tree, if no node above the place
satisfies `p`. -/
theorem TopmostAt.under (h : TopmostAt p t.node s) (ht : n.at? t.place = some t.node)
    (habove : Clear p n t.place) : TopmostAt p n (s.under t.place) where
  at? := by
    show n.at? (t.place ++ s.place) = some s.node
    rw [at?_append, ht]
    exact h.at?
  holds := h.holds
  above := habove.append ht h.above

theorem topmostAt_iff_of_true (hn : p n = true) : TopmostAt p n s ↔ s = ⟨[], n⟩ := by
  constructor
  · intro h
    obtain ⟨place, node⟩ := s
    by_cases hplace : place = []
    · subst hplace
      rw [Option.some.inj h.at?]
    · have hclear := h.above [] place n rfl hplace rfl
      rw [hn] at hclear
      contradiction
  · rintro rfl
    exact ⟨rfl, hn, clear_nil⟩

/-- What is topmost below a node without the test is topmost in one of its children. -/
theorem TopmostAt.exists_child (h : TopmostAt p n s) (hn : p n = false) :
    ∃ i child r, n.children[i]? = some child ∧ TopmostAt p child r ∧ s = r.under [i] := by
  obtain ⟨place, node⟩ := s
  cases place with
  | nil =>
    have hholds := h.holds
    rw [← Option.some.inj h.at?, hn] at hholds
    contradiction
  | cons i place =>
    obtain ⟨child, hchild, hat⟩ := Option.bind_eq_some_iff.mp h.at?
    exact ⟨i, child, ⟨place, node⟩, hchild,
      ⟨hat, h.holds, ((clear_cons_iff hchild).mp h.above).2⟩, rfl⟩

end

/-! ### Ways down -/

/-- A way down trees: the spots below a node that are next. -/
structure Descent where
  next : Node → List Spot
  at?_next : ∀ n, ∀ s ∈ next n, s.place ≠ [] ∧ n.at? s.place = some s.node
  pairwise_next : ∀ n, (next n).Pairwise fun s t => Place.Apart s.place t.place

namespace Descent

variable (d : Descent) (p : Node → Bool)

theorem sizeOf_lt_of_mem_next {d : Descent} {n : Node} {s : Spot} (h : s ∈ d.next n) :
    sizeOf s.node < sizeOf n :=
  sizeOf_lt_of_at? (d.at?_next n s h).1 (d.at?_next n s h).2

/-- The nodes that satisfy `p`, with their places, where nothing is looked at below one of them. -/
def spots (n : Node) : List Spot :=
  if p n then [⟨[], n⟩]
  else (d.next n).attach.flatMap fun s => (spots s.val.node).map (Spot.under s.val.place)
termination_by sizeOf n
decreasing_by exact sizeOf_lt_of_mem_next s.property

variable {d p} {n : Node} {s : Spot}

theorem spots_of_true (h : p n = true) : d.spots p n = [⟨[], n⟩] := by
  rw [spots, if_pos h]

theorem spots_of_false (h : p n = false) :
    d.spots p n = (d.next n).flatMap fun s => (d.spots p s.node).map (Spot.under s.place) := by
  rw [spots, if_neg (by simp [h])]
  conv => rhs; rw [← List.attach_map_subtype_val (d.next n), List.flatMap_map]

theorem mem_spots_of_false (h : p n = false) :
    s ∈ d.spots p n ↔ ∃ t ∈ d.next n, ∃ r ∈ d.spots p t.node, r.under t.place = s := by
  rw [spots_of_false h, List.mem_flatMap]
  simp only [List.mem_map]

/-- Induction along a way down, which does not go on below a node that satisfies the test. -/
@[elab_as_elim]
theorem spotInduction {motive : Node → Prop} (d : Descent) (p : Node → Bool)
    (found : ∀ n, p n = true → motive n)
    (below : ∀ n, p n = false → (∀ s ∈ d.next n, motive s.node) → motive n) (n : Node) :
    motive n := by
  cases hn : p n with
  | true => exact found n hn
  | false => exact below n hn fun s hs => spotInduction d p found below s.node
termination_by sizeOf n
decreasing_by exact sizeOf_lt_of_mem_next hs

/-- A spot has its node at its place. -/
theorem at?_of_mem_spots (h : s ∈ d.spots p n) : n.at? s.place = some s.node := by
  induction n using spotInduction d p generalizing s with
  | found n hn =>
    rw [spots_of_true hn, List.mem_singleton] at h
    rw [h]
    rfl
  | below n hn ih =>
    obtain ⟨t, ht, r, hr, rfl⟩ := (mem_spots_of_false hn).mp h
    show n.at? (t.place ++ r.place) = some r.node
    rw [at?_append, (d.at?_next n t ht).2]
    exact ih t ht hr

theorem pairwise_spots (n : Node) :
    (d.spots p n).Pairwise fun s t => Place.Apart s.place t.place := by
  induction n using spotInduction d p with
  | found n hn =>
    rw [spots_of_true hn]
    exact List.pairwise_singleton _ _
  | below n hn ih =>
    rw [spots_of_false hn, List.pairwise_flatMap]
    refine ⟨fun t ht => List.pairwise_map.mpr ((ih t ht).imp fun h => h.append_left t.place), ?_⟩
    refine (d.pairwise_next n).imp fun hapart => ?_
    simp only [List.forall_mem_map]
    exact fun r _ r' _ => hapart.append_append r.place r'.place

/-- What is found is topmost, if no node that is passed over on the way down satisfies the test. -/
theorem topmostAt_of_mem_spots (hnext : ∀ n, p n = false → ∀ t ∈ d.next n, Clear p n t.place)
    (h : s ∈ d.spots p n) : TopmostAt p n s := by
  induction n using spotInduction d p generalizing s with
  | found n hn =>
    rw [spots_of_true hn, List.mem_singleton] at h
    exact (topmostAt_iff_of_true hn).mpr h
  | below n hn ih =>
    obtain ⟨t, ht, r, hr, rfl⟩ := (mem_spots_of_false hn).mp h
    exact (ih t ht hr).under (d.at?_next n t ht).2 (hnext n hn t ht)

/-- The nodes of the spots are what a search finds that goes down the same way. -/
theorem map_node_spots {search : Node → List Node} (htrue : ∀ n, p n = true → search n = [n])
    (hfalse : ∀ n, p n = false → search n = ((d.next n).map Spot.node).flatMap search) (n : Node) :
    (d.spots p n).map Spot.node = search n := by
  induction n using spotInduction d p with
  | found n hn => rw [spots_of_true hn, htrue n hn, List.map_singleton]
  | below n hn ih =>
    rw [spots_of_false hn, hfalse n hn, List.map_flatMap, List.flatMap_map]
    refine congrArg List.flatten (List.map_congr_left fun t ht => ?_)
    rw [← ih t ht, List.map_map]
    rfl

end Descent

end Node

end PartitionPruning
