import PartitionPruning.Proofs.Tree.Fields
import PartitionPruning.Proofs.Tree.Parts
import PartitionPruning.Tree.Json.Reader

/-! Trees in which no object has a key twice. Every tree that has been read is one, and writing a
field keeps it one. -/

namespace PartitionPruning

namespace Node

/-- No object of the tree has a key twice. -/
def DistinctKeys (n : Node) : Prop :=
  ∀ t ∈ n.parts, (Fields.keys (t.fields?.getD [])).Nodup

instance (n : Node) : Decidable n.DistinctKeys := by
  unfold DistinctKeys
  infer_instance

theorem distinctKeys_array_iff {xs : List Node} :
    (array xs).DistinctKeys ↔ ∀ x ∈ xs, x.DistinctKeys :=
  forall_parts_array_iff.trans (and_iff_right List.nodup_nil)

theorem distinctKeys_object_iff {fs : Fields Node} :
    (object fs).DistinctKeys ↔ (Fields.keys fs).Nodup ∧ ∀ e ∈ fs, e.2.DistinctKeys :=
  forall_parts_object_iff

theorem distinctKeys_of_isScalar {n : Node} (h : n.isScalar = true) : n.DistinctKeys := by
  cases n <;> simp_all [isScalar, DistinctKeys, parts, fields?, Fields.keys]

theorem DistinctKeys.field? {n v : Node} {key : String} (h : n.DistinctKeys)
    (hv : n.field? key = some v) : v.DistinctKeys := by
  cases n <;> simp only [Node.field?, reduceCtorEq] at hv
  exact (distinctKeys_object_iff.mp h).2 _ (Fields.mem_of_get? hv)

theorem DistinctKeys.withField {n r v : Node} {key : String} (h : n.DistinctKeys)
    (hv : v.DistinctKeys) (hr : n.withField key v = .ok r) : r.DistinctKeys := by
  cases n <;> simp only [Node.withField, reduceCtorEq, Except.ok.injEq] at hr
  subst hr
  obtain ⟨hkeys, hvalues⟩ := distinctKeys_object_iff.mp h
  refine distinctKeys_object_iff.mpr ⟨Fields.nodup_keys_insert hkeys key v, fun e he => ?_⟩
  rcases Fields.mem_insert he with rfl | he
  · exact hv
  · exact hvalues e he

end Node

/-! ### Trees that have been read -/

namespace Fields

variable {α : Type} {e : String × α} {entries : List (String × α)}

theorem mem_insertAll {fs : Fields α} (h : e ∈ insertAll fs entries) : e ∈ fs ∨ e ∈ entries := by
  unfold insertAll at h
  induction entries generalizing fs with
  | nil => exact Or.inl h
  | cons d entries ih =>
    rcases ih h with h | h
    · rcases mem_insert h with rfl | h
      · exact Or.inr List.mem_cons_self
      · exact Or.inl h
    · exact Or.inr (List.mem_cons_of_mem _ h)

theorem mem_ofEntries (h : e ∈ ofEntries entries) : e ∈ entries :=
  (mem_insertAll h).resolve_left List.not_mem_nil

end Fields

namespace Json

section

variable {α : Type} {P : α → Prop} {close : Char} {item : Reader α}

theorem forall_of_readItems (hitem : ∀ cs x rest, item cs = some (x, rest) → P x) {fuel : Nat}
    {cs rest : List Char} {xs : List α} (h : readItems close item fuel cs = some (xs, rest)) :
    ∀ x ∈ xs, P x := by
  induction fuel generalizing cs rest xs with
  | zero => contradiction
  | succ fuel ih =>
    obtain ⟨⟨x, tail⟩, hx, h⟩ := Option.bind_eq_some_iff.mp h
    have hfirst := hitem _ _ _ hx
    simp only [] at h
    split at h
    · contradiction
    split at h
    · obtain ⟨⟨ys, _⟩, hys, heq⟩ := Option.map_eq_some_iff.mp h
      obtain ⟨rfl, -⟩ := Prod.mk.inj heq
      exact List.forall_mem_cons.mpr ⟨hfirst, ih hys⟩
    split at h
    · obtain ⟨rfl, -⟩ := Prod.mk.inj (Option.some.inj h)
      exact List.forall_mem_singleton.mpr hfirst
    · contradiction

theorem forall_of_readList (hitem : ∀ cs x rest, item cs = some (x, rest) → P x)
    {cs rest : List Char} {xs : List α} (h : readList close item cs = some (xs, rest)) :
    ∀ x ∈ xs, P x := by
  unfold readList at h
  split at h
  · contradiction
  split at h
  · obtain ⟨rfl, -⟩ := Prod.mk.inj (Option.some.inj h)
    simp
  · exact forall_of_readItems hitem h

theorem value_of_readMember {value : String → Reader α}
    (hvalue : ∀ key cs v rest, value key cs = some (v, rest) → P v) {cs rest : List Char}
    {e : String × α} (h : readMember value cs = some (e, rest)) : P e.2 := by
  unfold readMember at h
  split at h
  · obtain ⟨⟨key, tail⟩, -, h⟩ := Option.bind_eq_some_iff.mp h
    simp only [] at h
    split at h
    · obtain ⟨⟨v, _⟩, hv, heq⟩ := Option.map_eq_some_iff.mp h
      obtain ⟨rfl, -⟩ := Prod.mk.inj heq
      exact hvalue _ _ _ _ hv
    · contradiction
  · contradiction

end

theorem distinctKeys_of_readValue (limit : Nat) {cs rest : List Char} {n : Node}
    (h : readValue limit cs = some (n, rest)) : n.DistinctKeys := by
  unfold readValue at h
  split at h
  · obtain ⟨rfl, -⟩ := Prod.mk.inj (Option.some.inj h)
    exact Node.distinctKeys_of_isScalar rfl
  · obtain ⟨rfl, -⟩ := Prod.mk.inj (Option.some.inj h)
    exact Node.distinctKeys_of_isScalar rfl
  · obtain ⟨rfl, -⟩ := Prod.mk.inj (Option.some.inj h)
    exact Node.distinctKeys_of_isScalar rfl
  · obtain ⟨_, -, heq⟩ := Option.map_eq_some_iff.mp h
    obtain ⟨rfl, -⟩ := Prod.mk.inj heq
    exact Node.distinctKeys_of_isScalar rfl
  · cases limit with
    | zero => contradiction
    | succ limit =>
      obtain ⟨⟨xs, _⟩, hxs, heq⟩ := Option.map_eq_some_iff.mp h
      obtain ⟨rfl, -⟩ := Prod.mk.inj heq
      exact Node.distinctKeys_array_iff.mpr
        (forall_of_readList (fun _ _ _ h => distinctKeys_of_readValue limit h) hxs)
  · cases limit with
    | zero => contradiction
    | succ limit =>
      obtain ⟨⟨entries, _⟩, hentries, heq⟩ := Option.map_eq_some_iff.mp h
      obtain ⟨rfl, -⟩ := Prod.mk.inj heq
      have hvalues : ∀ e ∈ entries, e.2.DistinctKeys :=
        forall_of_readList (fun _ _ _ he =>
          value_of_readMember (fun _ _ _ _ h => distinctKeys_of_readValue limit h) he) hentries
      exact Node.distinctKeys_object_iff.mpr ⟨Fields.nodup_keys_ofEntries entries,
        fun e he => hvalues e (Fields.mem_ofEntries he)⟩
  · obtain ⟨_, -, heq⟩ := Option.map_eq_some_iff.mp h
    obtain ⟨rfl, -⟩ := Prod.mk.inj heq
    exact Node.distinctKeys_of_isScalar rfl

/-- Fields that have been read have distinct keys, since a key that comes again is written over. -/
theorem distinctKeys_of_readTree {text : String} {n : Node} (h : readTree text = some n) :
    n.DistinctKeys := by
  obtain ⟨⟨v, rest⟩, hread, h⟩ := Option.bind_eq_some_iff.mp h
  simp only [] at h
  split at h
  · exact Option.some.inj h ▸ distinctKeys_of_readValue _ hread
  · contradiction

end Json

end PartitionPruning
