import PartitionPruning.Proofs.Tree.Json.Canonical
import PartitionPruning.Proofs.Tree.Printable

/-! Trees up to the order of fields. Sorting the fields of all objects keeps a tree up to that
order, and trees that are the same up to it are the same once they are sorted. -/

namespace PartitionPruning

namespace Node

/-- The trees are the same up to the order of the fields of any object. -/
inductive Reordered : Node → Node → Prop
  | scalar {n : Node} (scalar : n.isScalar = true) : Reordered n n
  | array {xs ys : List Node} (length : xs.length = ys.length)
    (items : ∀ (i : Nat) (x y : Node), xs[i]? = some x → ys[i]? = some y → Reordered x y) :
    Reordered (array xs) (array ys)
  | object {fs gs : Fields Node}
    (keys : ∀ key, (Fields.get? fs key).isSome = (Fields.get? gs key).isSome)
    (values : ∀ key v w, Fields.get? fs key = some v → Fields.get? gs key = some w →
      Reordered v w) :
    Reordered (object fs) (object gs)

/-- The fields of every object of the tree stand in the order of their keys, none twice. -/
def SortedKeys (n : Node) : Prop :=
  ∀ t ∈ n.parts, (Fields.keys (t.fields?.getD [])).Pairwise (· < ·)

theorem sortedKeys_array_iff {xs : List Node} : (array xs).SortedKeys ↔ ∀ x ∈ xs, x.SortedKeys :=
  forall_parts_array_iff.trans (and_iff_right List.Pairwise.nil)

theorem sortedKeys_object_iff {fs : Fields Node} : (object fs).SortedKeys ↔
    (Fields.keys fs).Pairwise (· < ·) ∧ ∀ e ∈ fs, e.2.SortedKeys :=
  forall_parts_object_iff

theorem sortedKeys_of_isScalar {n : Node} (h : n.isScalar = true) : n.SortedKeys := by
  cases n <;> simp_all [isScalar, SortedKeys, parts, fields?, Fields.keys]

theorem SortedKeys.distinctKeys {n : Node} (h : n.SortedKeys) : n.DistinctKeys :=
  fun t ht => (h t ht).imp Std.ne_of_lt

theorem reordered_array_iff {xs ys : List Node} : (array xs).Reordered (array ys) ↔
    xs.length = ys.length ∧
      ∀ (i : Nat) (x y : Node), xs[i]? = some x → ys[i]? = some y → x.Reordered y := by
  constructor
  · rintro (hscalar | ⟨length, items⟩)
    · contradiction
    · exact ⟨length, items⟩
  · rintro ⟨length, items⟩
    exact .array length items

theorem reordered_object_iff {fs gs : Fields Node} : (object fs).Reordered (object gs) ↔
    ∀ key, (Fields.get? fs key).isSome = (Fields.get? gs key).isSome ∧
      ∀ v w, Fields.get? fs key = some v → Fields.get? gs key = some w → v.Reordered w := by
  constructor
  · rintro (hscalar | _ | ⟨keys, values⟩) key
    · contradiction
    · exact ⟨keys key, values key⟩
  · intro h
    exact .object (fun key => (h key).1) fun key => (h key).2

end Node

namespace Json

/-! ### What sorting keeps -/

theorem sorted_of_isScalar {n : Node} (h : n.isScalar = true) : sorted n = n := by
  cases n <;> first | contradiction | rfl

theorem isScalar_sorted (n : Node) : (sorted n).isScalar = n.isScalar := by
  cases n <;> rfl

theorem sorted_array (xs : List Node) : sorted (.array xs) = .array (xs.map sorted) := by
  rw [sorted, sortedItems_eq]

/-- The fields with all their values sorted. -/
def sortedValues (fs : Fields Node) : Fields Node := fs.map fun e => (e.1, sorted e.2)

theorem sorted_object (fs : Fields Node) :
    sorted (.object fs) = .object (sortByKey (sortedValues fs)) := by
  rw [sorted, sortedFields_eq]
  rfl

theorem nodup_keys_sortedValues {fs : Fields Node} (h : (Fields.keys fs).Nodup) :
    (Fields.keys (sortedValues fs)).Nodup := by
  rw [sortedValues, Fields.keys_map fun _ v => sorted v]
  exact h

theorem get?_sortedValues (fs : Fields Node) (key : String) :
    Fields.get? (sortedValues fs) key = (Fields.get? fs key).map sorted :=
  Fields.get?_map (fun _ v => sorted v) fs key

theorem forall_sortedValues_iff {P : Node → Prop} {fs : Fields Node} :
    (∀ e ∈ sortByKey (sortedValues fs), P e.2) ↔ ∀ e ∈ fs, P (sorted e.2) := by
  simp only [(Fields.perm_sortByKey _).mem_iff, sortedValues, List.forall_mem_map]

theorem printable_sorted {limit : Nat} {n : Node} (h : n.Printable limit) :
    (sorted n).Printable limit := by
  induction n using Node.childInduction generalizing limit with
  | scalar n hscalar =>
    rw [sorted_of_isScalar hscalar]
    exact h
  | array xs ih =>
    cases limit with
    | zero => exact absurd h.isScalar Bool.false_ne_true
    | succ limit =>
      rw [Node.printable_array_iff] at h
      rw [sorted_array, Node.printable_array_iff, List.forall_mem_map]
      exact fun x hx => ih x hx (h x hx)
  | object fs ih =>
    cases limit with
    | zero => exact absurd h.isScalar Bool.false_ne_true
    | succ limit =>
      rw [Node.printable_object_iff] at h
      rw [sorted_object, Node.printable_object_iff, forall_sortedValues_iff]
      exact ⟨Fields.nodup_keys_sortByKey (nodup_keys_sortedValues h.1),
        fun e he => ih e he (h.2 e he)⟩

theorem sortedKeys_sorted {n : Node} (h : n.DistinctKeys) : (sorted n).SortedKeys := by
  induction n using Node.childInduction with
  | scalar n hscalar =>
    rw [sorted_of_isScalar hscalar]
    exact Node.sortedKeys_of_isScalar hscalar
  | array xs ih =>
    rw [Node.distinctKeys_array_iff] at h
    rw [sorted_array, Node.sortedKeys_array_iff, List.forall_mem_map]
    exact fun x hx => ih x hx (h x hx)
  | object fs ih =>
    rw [Node.distinctKeys_object_iff] at h
    rw [sorted_object, Node.sortedKeys_object_iff, forall_sortedValues_iff]
    exact ⟨Fields.pairwise_lt_keys_sortByKey (nodup_keys_sortedValues h.1),
      fun e he => ih e he (h.2 e he)⟩

theorem sorted_sorted {n : Node} (h : n.DistinctKeys) : sorted (sorted n) = sorted n := by
  induction n using Node.childInduction with
  | scalar n hscalar => rw [sorted_of_isScalar hscalar, sorted_of_isScalar hscalar]
  | array xs ih =>
    rw [Node.distinctKeys_array_iff] at h
    rw [sorted_array, sorted_array, List.map_map]
    exact congrArg Node.array (List.map_congr_left fun x hx => ih x hx (h x hx))
  | object fs ih =>
    rw [Node.distinctKeys_object_iff] at h
    have hnodup := nodup_keys_sortedValues h.1
    rw [sorted_object, sorted_object, Node.object.injEq, Fields.sortByKey_eq_iff
      (nodup_keys_sortedValues (Fields.nodup_keys_sortByKey hnodup)) hnodup]
    intro key
    rw [get?_sortedValues, Fields.get?_sortByKey hnodup, get?_sortedValues, Option.map_map]
    cases hget : Fields.get? fs key with
    | none => rfl
    | some v =>
      have hmem := Fields.mem_of_get? hget
      exact congrArg some (ih _ hmem (h.2 _ hmem))

/-! ### Trees up to the order of fields -/

theorem sorted_array_eq_iff {xs ys : List Node}
    (h : ∀ x ∈ xs, ∀ y ∈ ys, (sorted x = sorted y ↔ x.Reordered y)) :
    sorted (.array xs) = sorted (.array ys) ↔ (Node.array xs).Reordered (.array ys) := by
  rw [sorted_array, sorted_array, Node.array.injEq, Node.reordered_array_iff]
  constructor
  · intro heq
    refine ⟨by simpa using congrArg List.length heq, fun i x y hx hy => ?_⟩
    have hxy : some (sorted x) = some (sorted y) := by
      simpa [hx, hy] using congrArg (·[i]?) heq
    exact (h x (List.mem_of_getElem? hx) y (List.mem_of_getElem? hy)).mp (Option.some.inj hxy)
  · rintro ⟨hlength, hitems⟩
    refine List.ext_getElem (by simpa using hlength) fun i hi hj => ?_
    rw [List.length_map] at hi hj
    rw [List.getElem_map, List.getElem_map]
    exact (h _ (List.getElem_mem hi) _ (List.getElem_mem hj)).mpr
      (hitems i _ _ (List.getElem?_eq_getElem hi) (List.getElem?_eq_getElem hj))

theorem sorted_object_eq_iff {fs gs : Fields Node} (hfs : (Fields.keys fs).Nodup)
    (hgs : (Fields.keys gs).Nodup)
    (h : ∀ key v w, Fields.get? fs key = some v → Fields.get? gs key = some w →
      (sorted v = sorted w ↔ v.Reordered w)) :
    sorted (.object fs) = sorted (.object gs) ↔ (Node.object fs).Reordered (.object gs) := by
  rw [sorted_object, sorted_object, Node.object.injEq, Fields.sortByKey_eq_iff
    (nodup_keys_sortedValues hfs) (nodup_keys_sortedValues hgs), Node.reordered_object_iff]
  refine forall_congr' fun key => ?_
  rw [get?_sortedValues, get?_sortedValues]
  cases hv : Fields.get? fs key with
  | none => cases Fields.get? gs key <;> simp
  | some v =>
    cases hw : Fields.get? gs key with
    | none => simp
    | some w => simp [h key v w hv hw]

/-- Trees are the same once they are sorted if they are the same up to the order of fields. -/
theorem sorted_eq_iff {a b : Node} (ha : a.DistinctKeys) (hb : b.DistinctKeys) :
    sorted a = sorted b ↔ a.Reordered b := by
  induction a using Node.childInduction generalizing b with
  | scalar a hscalar =>
    constructor
    · intro h
      have hb : b.isScalar = true := by rw [← isScalar_sorted, ← h, isScalar_sorted, hscalar]
      rw [sorted_of_isScalar hscalar, sorted_of_isScalar hb] at h
      exact h ▸ .scalar hscalar
    · rintro (_ | _ | _)
      · rfl
      · contradiction
      · contradiction
  | array xs ih =>
    cases b with
    | array ys =>
      rw [Node.distinctKeys_array_iff] at ha hb
      exact sorted_array_eq_iff fun x hx y hy => ih x hx (ha x hx) (hb y hy)
    | _ => constructor <;> (intro h; cases h)
  | object fs ih =>
    cases b with
    | object gs =>
      rw [Node.distinctKeys_object_iff] at ha hb
      refine sorted_object_eq_iff ha.1 hb.1 fun key v w hv hw => ?_
      have hmem := Fields.mem_of_get? hv
      exact ih _ hmem (ha.2 _ hmem) (hb.2 _ (Fields.mem_of_get? hw))
    | _ => constructor <;> (intro h; cases h)

theorem reordered_sorted {n : Node} (h : n.DistinctKeys) : n.Reordered (sorted n) :=
  (sorted_eq_iff h (sortedKeys_sorted h).distinctKeys).mp (sorted_sorted h).symm

end Json

end PartitionPruning
