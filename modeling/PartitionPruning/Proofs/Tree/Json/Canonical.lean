import PartitionPruning.Fingerprint
import PartitionPruning.Proofs.Tree.DistinctKeys
import PartitionPruning.Proofs.Tree.Json.Compact
import PartitionPruning.Proofs.Tree.Same

/-! Canonical text. Trees without positions have the same canonical text if and only if they are the
same up to the order of fields. -/

namespace PartitionPruning

namespace Node

/-! ### Matching lists -/

variable {number : Number → Number → Bool}

theorem itemsMatchBy_iff {xs ys : List Node} : itemsMatchBy number xs ys = true ↔
    xs.length = ys.length ∧ ∀ (i : Nat) (x y : Node), xs[i]? = some x → ys[i]? = some y →
      x.matchesBy number y = true := by
  induction xs generalizing ys with
  | nil => cases ys <;> simp [itemsMatchBy]
  | cons x xs ih =>
    cases ys with
    | nil => simp [itemsMatchBy]
    | cons y ys =>
      rw [itemsMatchBy, Bool.and_eq_true, ih]
      constructor
      · rintro ⟨hfirst, hlength, hrest⟩
        refine ⟨congrArg (· + 1) hlength, fun i x' y' hx hy => ?_⟩
        cases i with
        | zero => exact Option.some.inj hx ▸ Option.some.inj hy ▸ hfirst
        | succ i => exact hrest i x' y' hx hy
      · rintro ⟨hlength, hitems⟩
        exact ⟨hitems 0 x y rfl rfl, Nat.succ.inj hlength, fun i => hitems (i + 1)⟩

theorem fieldsMatchBy_iff {fs gs : Fields Node} (h : (Fields.keys fs).Nodup) :
    fieldsMatchBy number fs gs = true ↔ Fields.keys fs = Fields.keys gs ∧
      ∀ key v w, Fields.get? fs key = some v → Fields.get? gs key = some w →
        v.matchesBy number w = true := by
  induction fs generalizing gs with
  | nil => cases gs <;> simp [fieldsMatchBy, Fields.keys, Fields.get?]
  | cons f fs ih =>
    obtain ⟨k, x⟩ := f
    obtain ⟨hfresh, hrest⟩ := List.nodup_cons.mp h
    cases gs with
    | nil => simp [fieldsMatchBy, Fields.keys]
    | cons g gs =>
      obtain ⟨l, y⟩ := g
      rw [fieldsMatchBy, Bool.and_eq_true, Bool.and_eq_true, beq_iff_eq, ih hrest,
        Fields.keys_cons, Fields.keys_cons, List.cons.injEq]
      constructor
      · rintro ⟨⟨rfl, hfirst⟩, hkeys, hvalues⟩
        refine ⟨⟨rfl, hkeys⟩, fun key v w hv hw => ?_⟩
        unfold Fields.get? at hv hw
        split at hv
        · rw [if_pos ‹_›] at hw
          exact Option.some.inj hv ▸ Option.some.inj hw ▸ hfirst
        · rw [if_neg ‹_›] at hw
          exact hvalues key v w hv hw
      · rintro ⟨⟨rfl, hkeys⟩, hvalues⟩
        refine ⟨⟨rfl, hvalues k x y (by simp [Fields.get?]) (by simp [Fields.get?])⟩, hkeys,
          fun key v w hv hw => ?_⟩
        have hne : k ≠ key := fun heq =>
          hfresh (heq ▸ Fields.isSome_get?_iff.mp (Option.isSome_of_eq_some hv))
        exact hvalues key v w (by simpa [Fields.get?, hne] using hv)
          (by simpa [Fields.get?, hne] using hw)

end Node

namespace Json

/-! ### Trees without positions, with sorted fields -/

theorem sortedItems_eq (xs : List Node) : sortedItems xs = xs.map sorted := by
  induction xs with
  | nil => rfl
  | cons x xs ih => rw [sortedItems, ih, List.map_cons]

theorem sortedFields_eq (fs : Fields Node) :
    sortedFields fs = fs.map fun e => (e.1, sorted e.2) := by
  induction fs with
  | nil => rfl
  | cons f fs ih => rw [sortedFields, ih, List.map_cons]

end Json

theorem clearItemPositions_eq (xs : List Node) :
    clearItemPositions xs = xs.map clearPositions := by
  induction xs with
  | nil => rfl
  | cons x xs ih => rw [clearItemPositions, ih, List.map_cons]

theorem clearFieldPositions_eq (fs : Fields Node) : clearFieldPositions fs = fs.map fun e =>
    (e.1, if e.1 = "query_location" then Build.zero else clearPositions e.2) := by
  induction fs with
  | nil => rfl
  | cons f fs ih => rw [clearFieldPositions, ih, List.map_cons]

/-- The tree without positions, its fields in the order of their keys. -/
def arranged (n : Node) : Node := Json.sorted (clearPositions n)

def arrangedField (key : String) (v : Node) : Node :=
  if key = "query_location" then Build.zero else arranged v

theorem arranged_array (xs : List Node) : arranged (.array xs) = .array (xs.map arranged) := by
  rw [arranged, clearPositions, Json.sorted, clearItemPositions_eq, Json.sortedItems_eq,
    List.map_map]
  rfl

theorem arranged_object (fs : Fields Node) : arranged (.object fs) =
    .object (Json.sortByKey (fs.map fun e => (e.1, arrangedField e.1 e.2))) := by
  rw [arranged, clearPositions, Json.sorted, clearFieldPositions_eq, Json.sortedFields_eq,
    List.map_map]
  congr
  funext e
  simp only [Function.comp_apply, arrangedField, arranged]
  split <;> rfl

theorem arrangedField_iff {key : String} {v? w? : Option Node}
    (h : ∀ v w, v? = some v → w? = some w →
      ((arranged v).matchesBy Number.sameDigits (arranged w) = true ↔ v.Same w)) :
    ((v?.map (arrangedField key)).isSome = (w?.map (arrangedField key)).isSome ∧
      ∀ v w, v?.map (arrangedField key) = some v → w?.map (arrangedField key) = some w →
        v.matchesBy Number.sameDigits w = true) ↔
    Node.SameField (fun _ => False) key v? w? := by
  simp only [Node.SameField, not_false_eq_true, forall_const, Option.isSome_map]
  refine and_congr_right fun _ => ?_
  constructor
  · rintro hmatch v w hkey rfl rfl
    have hvw := hmatch _ _ rfl rfl
    rw [arrangedField, arrangedField, if_neg hkey, if_neg hkey] at hvw
    exact (h v w rfl rfl).mp hvw
  · intro hsame v' w' hv' hw'
    obtain ⟨v, rfl, rfl⟩ := Option.map_eq_some_iff.mp hv'
    obtain ⟨w, rfl, rfl⟩ := Option.map_eq_some_iff.mp hw'
    unfold arrangedField
    split
    · rfl
    · rename_i hkey
      exact (h v w rfl rfl).mpr (hsame v w hkey rfl rfl)

theorem arranged_array_iff {xs ys : List Node} (h : ∀ x ∈ xs, ∀ y ∈ ys,
      ((arranged x).matchesBy Number.sameDigits (arranged y) = true ↔ x.Same y)) :
    (arranged (.array xs)).matchesBy Number.sameDigits (arranged (.array ys)) = true ↔
      (Node.array xs).Same (.array ys) := by
  rw [arranged_array, arranged_array, Node.matchesBy, Node.itemsMatchBy_iff, Node.Same,
    Node.sameBut_array_iff, List.length_map, List.length_map]
  refine and_congr_right fun _ => forall_congr' fun i => ?_
  constructor
  · intro hmatch x y hx hy
    refine (h x (List.mem_of_getElem? hx) y (List.mem_of_getElem? hy)).mp (hmatch _ _ ?_ ?_)
    · rw [List.getElem?_map, hx]
      rfl
    · rw [List.getElem?_map, hy]
      rfl
  · intro hsame x' y' hx' hy'
    rw [List.getElem?_map] at hx' hy'
    obtain ⟨x, hx, rfl⟩ := Option.map_eq_some_iff.mp hx'
    obtain ⟨y, hy, rfl⟩ := Option.map_eq_some_iff.mp hy'
    exact (h x (List.mem_of_getElem? hx) y (List.mem_of_getElem? hy)).mpr (hsame x y hx hy)

theorem arranged_object_iff {fs gs : Fields Node} (hfs : (Fields.keys fs).Nodup)
    (hgs : (Fields.keys gs).Nodup)
    (h : ∀ key v w, Fields.get? fs key = some v → Fields.get? gs key = some w →
      ((arranged v).matchesBy Number.sameDigits (arranged w) = true ↔ v.Same w)) :
    (arranged (.object fs)).matchesBy Number.sameDigits (arranged (.object gs)) = true ↔
      (Node.object fs).Same (.object gs) := by
  -- Arranging keeps the keys, so a value is found where it was.
  have hkeys (fs : Fields Node) (h : (Fields.keys fs).Nodup) :
      (Fields.keys (fs.map fun e => (e.1, arrangedField e.1 e.2))).Nodup := by
    rw [Fields.keys_map arrangedField]
    exact h
  have hget (fs : Fields Node) (h : (Fields.keys fs).Nodup) (key : String) :=
    (Fields.get?_sortByKey (hkeys fs h) key).trans (Fields.get?_map arrangedField fs key)
  rw [arranged_object, arranged_object, Node.matchesBy, Node.fieldsMatchBy_iff
    (Fields.nodup_keys_sortByKey (hkeys fs hfs)), Fields.keys_sortByKey_eq_iff (hkeys fs hfs)
    (hkeys gs hgs), Node.Same, Node.sameBut_object_iff]
  simp only [hget fs hfs, hget gs hgs, Fields.get?_map]
  exact forall_and.symm.trans (forall_congr' fun key => arrangedField_iff (h key))

/-- Arranged trees match if the trees are the same up to positions and the order of fields. -/
theorem arranged_matchesBy_iff (a b : Node) (ha : a.DistinctKeys) (hb : b.DistinctKeys) :
    (arranged a).matchesBy Number.sameDigits (arranged b) = true ↔ a.Same b := by
  match a with
  | .null =>
    cases b with
    | null => exact ⟨fun _ => .null, fun _ => rfl⟩
    | _ => constructor <;> (intro h; cases h)
  | .bool a =>
    cases b with
    | bool b =>
      constructor
      · intro h
        obtain rfl : a = b := beq_iff_eq.mp h
        exact .bool a
      · rintro ⟨⟩
        exact beq_self_eq_true a
    | _ => constructor <;> (intro h; cases h)
  | .number n =>
    cases b with
    | number m =>
      constructor
      · intro h
        exact .number (beq_iff_eq.mp h)
      · rintro (_ | _ | digits)
        exact beq_iff_eq.mpr digits
    | _ => constructor <;> (intro h; cases h)
  | .string a =>
    cases b with
    | string b =>
      constructor
      · intro h
        obtain rfl : a = b := beq_iff_eq.mp h
        exact .string a
      · rintro ⟨⟩
        exact beq_self_eq_true a
    | _ => constructor <;> (intro h; cases h)
  | .array xs =>
    cases b with
    | array ys =>
      rw [Node.distinctKeys_array_iff] at ha hb
      exact arranged_array_iff fun x hx y hy =>
        have := Node.sizeOf_lt_of_mem_items hx
        arranged_matchesBy_iff x y (ha x hx) (hb y hy)
    | _ => constructor <;> (intro h; cases h)
  | .object fs =>
    cases b with
    | object gs =>
      rw [Node.distinctKeys_object_iff] at ha hb
      refine arranged_object_iff ha.1 hb.1 fun key v w hv hw => ?_
      have hmem := Fields.mem_of_get? hv
      have := Node.sizeOf_lt_of_mem_fields hmem
      exact arranged_matchesBy_iff v w (ha.2 _ hmem) (hb.2 _ (Fields.mem_of_get? hw))
    | _ => constructor <;> (intro h; cases h)
termination_by sizeOf a
decreasing_by all_goals assumption

/-- Trees have the same canonical text without positions if they are the same up to positions and
the order of fields. -/
theorem toCanonicalJson_clearPositions_eq_iff {a b : Node} (ha : a.DistinctKeys)
    (hb : b.DistinctKeys) :
    (clearPositions a).toCanonicalJson = (clearPositions b).toCanonicalJson ↔ a.Same b := by
  rw [Node.toCanonicalJson, Node.toCanonicalJson, Node.toJson, Node.toJson, String.ofList_inj,
    Json.compact_eq_iff]
  exact arranged_matchesBy_iff a b ha hb

end PartitionPruning
