import PartitionPruning.Proofs.Fingerprint.Idempotent
import PartitionPruning.Proofs.Tree.Calls
import PartitionPruning.Proofs.Tree.Written

/-! Keys stay distinct. Fields are written one by one, and so no key comes twice, whatever is
written; and what is done to trees without repeated keys leaves none in them. -/

namespace PartitionPruning

namespace Node

/-! ### Trees that are collected -/

/-- The tree with all objects collected anew from their entries, as they are when a JSON value
becomes a tree. -/
def collected (n : Node) : Node := Id.run (rebuildM (fun _ => false) pure n)

theorem collected_scalar {n : Node} (h : n.isScalar = true) : collected n = n := by
  rw [collected, rebuildM_of_isScalar rfl h]
  rfl

theorem collected_array (xs : List Node) : collected (array xs) = array (xs.map collected) := by
  rw [collected, rebuildM_array rfl, Id.run_map, List.idRun_mapM]
  rfl

theorem collected_object (fs : Fields Node) : collected (object fs) =
    object (Fields.ofEntries (fs.map fun e => (e.1, collected e.2))) := by
  rw [collected, rebuildM_object rfl, Id.run_map, List.idRun_mapM]
  rfl

theorem distinctKeys_collected (n : Node) : (collected n).DistinctKeys := by
  induction n using childInduction with
  | scalar n h =>
    rw [collected_scalar h]
    exact distinctKeys_of_isScalar h
  | array xs ih =>
    rw [collected_array, distinctKeys_array_iff, List.forall_mem_map]
    exact ih
  | object fs ih =>
    rw [collected_object, distinctKeys_object_iff]
    refine ⟨Fields.nodup_keys_ofEntries _, fun e he => ?_⟩
    obtain ⟨d, hd, rfl⟩ := List.mem_map.mp (Fields.mem_ofEntries he)
    exact ih d hd

/-- Collecting drops no field, and keeps the order, where keys are distinct. -/
theorem collected_of_distinctKeys {n : Node} (h : n.DistinctKeys) : collected n = n := by
  induction n using childInduction with
  | scalar n hscalar => exact collected_scalar hscalar
  | array xs ih =>
    have hself : xs.map collected = xs :=
      (List.map_congr_left fun x hx => ih x hx (distinctKeys_array_iff.mp h x hx)).trans
        (List.map_id xs)
    rw [collected_array, hself]
  | object fs ih =>
    obtain ⟨hkeys, hvalues⟩ := distinctKeys_object_iff.mp h
    have hself : (fs.map fun e => (e.1, collected e.2)) = fs :=
      (List.map_congr_left fun e he => congrArg (Prod.mk e.1) (ih e he (hvalues e he))).trans
        (List.map_id fs)
    rw [collected_object, hself, Fields.ofEntries_of_nodup hkeys]

/-! ### Trees with results put in -/

section

variable {p : Node → Bool}

theorem exists_of_mem_putItems {xs rs : List Node} {y : Node} (h : y ∈ putItems p xs rs) :
    ∃ x ∈ xs, ∃ part, part ⊆ rs ∧ y = putTopmost p x part := by
  induction xs generalizing rs with
  | nil => contradiction
  | cons x xs ih =>
    rw [putItems, List.mem_cons] at h
    rcases h with rfl | h
    · exact ⟨x, List.mem_cons_self, _, List.take_subset _ _, rfl⟩
    · obtain ⟨z, hz, part, hpart, rfl⟩ := ih h
      exact ⟨z, List.mem_cons_of_mem x hz, part, fun r hr => List.drop_subset _ _ (hpart hr), rfl⟩

theorem distinctKeys_putTopmost {n : Node} {rs : List Node} (hn : n.DistinctKeys)
    (hrs : ∀ r ∈ rs, r.DistinctKeys) : (putTopmost p n rs).DistinctKeys := by
  induction n using replaceInduction p generalizing rs with
  | replaced n hp =>
    have hput : putTopmost p n rs = rs.headD n := by
      unfold putTopmost
      simp [hp]
    rw [hput]
    cases rs with
    | nil => exact hn
    | cons r rs => exact hrs r List.mem_cons_self
  | scalar n hp hscalar =>
    rw [putTopmost_of_isScalar hp hscalar]
    exact hn
  | array xs hp ih =>
    rw [putTopmost_array hp]
    refine distinctKeys_array_iff.mpr fun y hy => ?_
    obtain ⟨x, hx, part, hpart, rfl⟩ := exists_of_mem_putItems hy
    exact ih x hx (distinctKeys_array_iff.mp hn x hx) fun r hr => hrs r (hpart hr)
  | object fs hp ih =>
    obtain ⟨hkeys, hvalues⟩ := distinctKeys_object_iff.mp hn
    rw [putTopmost_object hp]
    refine distinctKeys_object_iff.mpr ⟨by rwa [keys_putFields], fun e he => ?_⟩
    have hvalue : e.2 ∈ putItems p (Fields.values fs) rs := by
      rw [← values_putFields]
      exact List.mem_map_of_mem he
    obtain ⟨x, hx, part, hpart, heq⟩ := exists_of_mem_putItems hvalue
    obtain ⟨d, hd, rfl⟩ := List.mem_map.mp hx
    rw [heq]
    exact ih d hd (hvalues d hd) fun r hr => hrs r (hpart hr)

theorem distinctKeys_of_replaceM {ε σ : Type} {f : Node → ExceptT ε (StateM σ) Node} {n r : Node}
    {s t : σ} (hn : n.DistinctKeys)
    (hcalls : ∀ rs u, Calls f s (topmost p n) rs u → ∀ y ∈ rs, y.DistinctKeys)
    (hr : (replaceM p f n).run.run s = (.ok r, t)) : r.DistinctKeys := by
  rw [replaceM_eq_putTopmost, map_eq_pure_bind] at hr
  rcases run_mapM f (topmost p n) s with
    ⟨rs, u, hdone, hrun⟩ | ⟨_, _, _, _, _, _, _, _, _, _, hrun⟩
  · rw [run_bind_of_ok hrun] at hr
    obtain ⟨hr, -⟩ := Prod.mk.inj hr
    rw [← Except.ok.inj hr]
    exact distinctKeys_putTopmost hn (hcalls rs u hdone)
  · rw [run_bind_of_error hrun] at hr
    cases (Prod.mk.inj hr).1

end

end Node

/-! ### Canonical trees -/

open Node

theorem distinctKeys_clearPositions {n : Node} (h : n.DistinctKeys) :
    (clearPositions n).DistinctKeys := by
  induction n using childInduction with
  | scalar n hscalar =>
    rw [clearPositions_scalar hscalar]
    exact h
  | array xs ih =>
    rw [clearPositions_array, distinctKeys_array_iff, List.forall_mem_map]
    exact fun x hx => ih x hx (distinctKeys_array_iff.mp h x hx)
  | object fs ih =>
    obtain ⟨hkeys, hvalues⟩ := distinctKeys_object_iff.mp h
    rw [clearPositions_object, distinctKeys_object_iff, Fields.keys_map, List.forall_mem_map]
    refine ⟨hkeys, fun e he => ?_⟩
    show (clearField e.1 e.2).DistinctKeys
    unfold clearField
    split
    · exact distinctKeys_of_isScalar rfl
    · exact ih e he (hvalues e he)

theorem distinctKeys_of_canonicalize {n r : Node} (hn : n.DistinctKeys)
    (hr : canonicalize n = .ok r) : r.DistinctKeys := by
  obtain ⟨u, hu, rfl⟩ := map_eq_ok.mp hr
  exact distinctKeys_clearPositions (distinctKeys_of_withoutLiterals n hn hu)

/-! ### From fields to trees -/

/-- Fields are the map of what is written into them. A tree that is read or collected has no
repeated keys; and neither has what is made of such a tree and of nodes without repeated keys, by
writing a field, by replacing, or by making the tree canonical. -/
theorem keys_stay_distinct {α ε σ : Type} (operations : List (Fields.Operation α))
    {p : Node → Bool} {f : Node → ExceptT ε (StateM σ) Node} {n v : Node} {s : σ}
    (hn : n.DistinctKeys) (hv : v.DistinctKeys)
    (hcalls : ∀ rs t, Calls f s (topmost p n) rs t → ∀ r ∈ rs, r.DistinctKeys) :
    Fields.IsMapOf (Fields.build operations) (Fields.written operations) ∧
      (∀ text r, Json.readTree text = some r → r.DistinctKeys) ∧
      ((∀ m, (collected m).DistinctKeys) ∧ collected n = n) ∧
      (∀ key r, n.withField key v = .ok r → r.DistinctKeys) ∧
      (∀ r t, (replaceM p f n).run.run s = (.ok r, t) → r.DistinctKeys) ∧
      ∀ r, canonicalize n = .ok r → r.DistinctKeys :=
  ⟨Fields.isMapOf_build operations, fun _ _ hr => Json.distinctKeys_of_readTree hr,
    ⟨distinctKeys_collected, collected_of_distinctKeys hn⟩,
    fun _ _ hr => hn.withField hv hr, fun _ _ hr => distinctKeys_of_replaceM hn hcalls hr,
    fun _ hr => distinctKeys_of_canonicalize hn hr⟩

/-- Fields that are written, collected and written again. -/
def writtenAgain : List (Fields.Operation Nat) :=
  [.insert "a" 1, .collect [("b", 2), ("a", 3), ("b", 4)], .insert "c" 5, .insert "a" 6]

def classless : Node := .object [("class", .null)]

/-- Puts the same node in every place. -/
def putClassless (_ : Node) : ExceptT String (StateM Nat) Node := pure classless

theorem distinctKeys_of_calls_putClassless {s t : Nat} {xs rs : List Node}
    (h : Calls putClassless s xs rs t) : ∀ r ∈ rs, r.DistinctKeys := by
  have hkeys : classless.DistinctKeys := by decide
  induction h with
  | nil => exact fun r hr => absurd hr List.not_mem_nil
  | cons first _ ih =>
    obtain ⟨hresult, -⟩ := Prod.mk.inj first
    exact List.forall_mem_cons.mpr ⟨Except.ok.inj hresult ▸ hkeys, ih⟩

/-- The fields have each key once; and so have the tree in which a field is written, the one whose
constant is replaced, and the canonical one. -/
theorem keys_stay_distinct_rewritten :
    Fields.build writtenAgain = [("b", 4), ("a", 6), ("c", 5)] ∧
      Fields.IsMapOf (Fields.build writtenAgain) (Fields.written writtenAgain) ∧
      decimalFilter.DistinctKeys ∧ classless.DistinctKeys ∧
      (∃ r, decimalFilter.withField "error" classless = .ok r ∧ r.DistinctKeys) ∧
      (∃ r, (replaceM isConstant putClassless decimalFilter).run.run 0 = (.ok r, 0) ∧
        r ≠ decimalFilter ∧ r.DistinctKeys) ∧
      ∃ r, canonicalize decimalFilter = .ok r ∧ r.DistinctKeys := by
  have hn : decimalFilter.DistinctKeys := by decide
  have hv : classless.DistinctKeys := by decide
  have hcalls : ∀ rs t, Calls putClassless 0 (topmost isConstant decimalFilter) rs t →
      ∀ r ∈ rs, r.DistinctKeys := fun _ _ => distinctKeys_of_calls_putClassless
  obtain ⟨hfields, -, -, hwritten, hreplaced, hcanonical⟩ :=
    keys_stay_distinct writtenAgain hn hv hcalls
  exact ⟨rfl, hfields, hn, hv, ⟨_, rfl, hwritten _ _ rfl⟩, ⟨_, rfl, by decide, hreplaced _ _ rfl⟩,
    ⟨_, rfl, hcanonical _ rfl⟩⟩

end PartitionPruning
