import PartitionPruning.Tree.Node

/-! The parts of a tree: the tree itself, and the parts of its items and of the values of its
fields. -/

namespace PartitionPruning

namespace Node

mutual

/-- A node and all nodes below it, in document order. -/
def parts : Node → List Node
  | array xs => array xs :: itemParts xs
  | object fs => object fs :: fieldParts fs
  | null => [null]
  | bool b => [bool b]
  | .number n => [.number n]
  | string s => [string s]

def itemParts : List Node → List Node
  | [] => []
  | x :: xs => parts x ++ itemParts xs

def fieldParts : List (String × Node) → List Node
  | [] => []
  | (_, x) :: fs => parts x ++ fieldParts fs

end

/-- Induction from the items of an array, or from the values of an object, to the whole. -/
@[elab_as_elim]
theorem childInduction {motive : Node → Prop}
    (scalar : ∀ n : Node, n.isScalar = true → motive n)
    (array : ∀ xs, (∀ x ∈ xs, motive x) → motive (array xs))
    (object : ∀ fs : Fields Node, (∀ e ∈ fs, motive e.2) → motive (object fs)) (n : Node) :
    motive n := by
  match n with
  | .array xs => exact array xs fun x hx => childInduction scalar array object x
  | .object fs => exact object fs fun e he => childInduction scalar array object e.2
  | .null | .bool _ | .number _ | .string _ => exact scalar _ rfl
termination_by sizeOf n
decreasing_by
  · exact sizeOf_lt_of_mem_items hx
  · exact sizeOf_lt_of_mem_fields he

theorem self_mem_parts (n : Node) : n ∈ n.parts := by
  cases n <;> simp [parts]

theorem itemParts_eq (xs : List Node) : itemParts xs = xs.flatMap parts := by
  induction xs with
  | nil => rfl
  | cons x xs ih => rw [itemParts, ih, List.flatMap_cons]

theorem fieldParts_eq (fs : Fields Node) : fieldParts fs = fs.flatMap fun e => e.2.parts := by
  induction fs with
  | nil => rfl
  | cons f fs ih => rw [fieldParts, ih, List.flatMap_cons]

theorem forall_parts_array_iff {P : Node → Prop} {xs : List Node} :
    (∀ t ∈ (array xs).parts, P t) ↔ P (array xs) ∧ ∀ x ∈ xs, ∀ t ∈ x.parts, P t := by
  rw [parts, itemParts_eq, List.forall_mem_cons, List.forall_mem_flatMap]

theorem forall_parts_object_iff {P : Node → Prop} {fs : Fields Node} :
    (∀ t ∈ (object fs).parts, P t) ↔ P (object fs) ∧ ∀ e ∈ fs, ∀ t ∈ e.2.parts, P t := by
  rw [parts, fieldParts_eq, List.forall_mem_cons, List.forall_mem_flatMap]

theorem mem_itemParts {n x : Node} {xs : List Node} (hx : x ∈ xs) (hn : n ∈ x.parts) :
    n ∈ itemParts xs := by
  rw [itemParts_eq]
  exact List.mem_flatMap_of_mem hx hn

theorem mem_fieldParts {n x : Node} {key : String} {fs : List (String × Node)}
    (hx : (key, x) ∈ fs) (hn : n ∈ x.parts) : n ∈ fieldParts fs := by
  rw [fieldParts_eq]
  exact List.mem_flatMap_of_mem hx hn

theorem mem_parts_of_field? {n v w : Node} {key : String} (h : n.field? key = some v)
    (hw : w ∈ v.parts) : w ∈ n.parts := by
  cases n <;> simp only [field?, reduceCtorEq] at h
  rw [parts]
  exact List.mem_cons_of_mem _ (mem_fieldParts (Fields.mem_of_get? h) hw)

theorem mem_parts_of_mem_parts {n v w : Node} (hv : v ∈ n.parts) (hw : w ∈ v.parts) :
    w ∈ n.parts := by
  induction n using childInduction with
  | scalar n hn => cases n <;> simp_all [parts, isScalar]
  | array xs ih =>
    rw [parts] at hv
    rcases List.mem_cons.mp hv with rfl | hv
    · exact hw
    · rw [itemParts_eq] at hv
      obtain ⟨x, hx, hv⟩ := List.mem_flatMap.mp hv
      rw [parts]
      exact List.mem_cons_of_mem _ (mem_itemParts hx (ih x hx hv))
  | object fs ih =>
    rw [parts] at hv
    rcases List.mem_cons.mp hv with rfl | hv
    · exact hw
    · rw [fieldParts_eq] at hv
      obtain ⟨e, he, hv⟩ := List.mem_flatMap.mp hv
      rw [parts]
      exact List.mem_cons_of_mem _ (mem_fieldParts he (ih e he hv))

theorem field?_of_present? {n v : Node} {key : String} (h : n.present? key = some v) :
    n.field? key = some v :=
  (Option.filter_eq_some_iff.mp h).1

theorem field?_of_require {n v : Node} {key : String} (h : n.require key = .ok v) :
    n.field? key = some v :=
  field?_of_present? (present?_of_require h)

theorem isNull_of_field? {n v : Node} {key : String} (h : n.field? key = some v) :
    n.isNull = false := by
  cases n <;> first | rfl | contradiction

theorem isNull_of_withField {n r v : Node} {key : String} (h : n.withField key v = .ok r) :
    n.isNull = false := by
  cases n <;> first | rfl | contradiction

theorem require_of_field? {n v : Node} {key : String} (h : n.field? key = some v)
    (hv : v.isNull = false) : n.require key = .ok v := by
  have hpresent : n.present? key = some v := by simp [present?, h, hv]
  rw [require, hpresent]

theorem itemsOf_of_field? {n : Node} {key : String} {xs : List Node}
    (h : n.field? key = some (array xs)) : n.itemsOf key = xs := by
  rw [itemsOf, itemsOf?, h]
  rfl

theorem mem_parts_of_present? {n v w : Node} {key : String} (h : n.present? key = some v)
    (hw : w ∈ v.parts) : w ∈ n.parts :=
  mem_parts_of_field? (field?_of_present? h) hw

theorem mem_parts_of_require {n v w : Node} {key : String} (h : n.require key = .ok v)
    (hw : w ∈ v.parts) : w ∈ n.parts :=
  mem_parts_of_field? (field?_of_require h) hw

theorem mem_parts_of_mem_itemsOf? {n v w : Node} {key : String} {xs : List Node}
    (h : n.itemsOf? key = some xs) (hv : v ∈ xs) (hw : w ∈ v.parts) : w ∈ n.parts := by
  obtain ⟨items, hfield, hitems⟩ := Option.bind_eq_some_iff.mp h
  refine mem_parts_of_field? hfield ?_
  rw [items?_eq_some hitems, parts]
  exact List.mem_cons_of_mem _ (mem_itemParts hv hw)

theorem mem_parts_of_mem_itemsOf {n v w : Node} {key : String} (hv : v ∈ n.itemsOf key)
    (hw : w ∈ v.parts) : w ∈ n.parts := by
  unfold itemsOf at hv
  cases hx : n.itemsOf? key with
  | none => simp [hx] at hv
  | some xs => exact mem_parts_of_mem_itemsOf? hx (by simpa [hx] using hv) hw

end Node

end PartitionPruning
