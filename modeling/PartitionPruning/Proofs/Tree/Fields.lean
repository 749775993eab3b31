import PartitionPruning.Proofs.Failure
import PartitionPruning.Tree.Json.Printer

/-! Fields under distinct keys are known by what each key is looked up to: writing a field, going
over the values and sorting keep the keys distinct, and a sorted list is settled by its keys. -/

namespace PartitionPruning

/-- Items sorted by a text of each are in the order of their texts. -/
theorem pairwise_mergeSort_text {α : Type} (text : α → String) (items : List α) :
    (items.mergeSort fun a b => decide (text a ≤ text b)).Pairwise fun a b => text a ≤ text b := by
  have h : (items.mergeSort fun a b => decide (text a ≤ text b)).Pairwise fun a b =>
      decide (text a ≤ text b) = true := by
    refine List.pairwise_mergeSort (fun a b c hab hbc => ?_) (fun a b => ?_) items
    · rw [decide_eq_true_eq] at hab hbc ⊢
      exact String.le_trans hab hbc
    · rw [Bool.or_eq_true, decide_eq_true_eq, decide_eq_true_eq]
      exact String.le_total (text a) (text b)
  exact h.imp of_decide_eq_true

theorem pairwise_lt_mergeSort_text {α : Type} {text : α → String} {items : List α}
    (h : (items.map text).Nodup) :
    (items.mergeSort fun a b => decide (text a ≤ text b)).Pairwise fun a b => text a < text b := by
  have hdistinct : ((items.mergeSort fun a b => decide (text a ≤ text b)).map text).Nodup :=
    ((List.mergeSort_perm items _).map text).nodup_iff.mpr h
  have hpairs := (pairwise_mergeSort_text text items).and (List.pairwise_map.mp hdistinct)
  exact hpairs.imp fun hab => Std.lt_of_le_of_ne hab.1 hab.2

namespace Fields

variable {α β ε : Type} {fs gs : Fields α} {key : String}

@[simp] theorem keys_cons (e : String × α) (fs : Fields α) : keys (e :: fs) = e.1 :: keys fs := rfl

/-! ### Distinct keys -/

theorem keys_insert (fs : Fields α) (key : String) (value : α) :
    keys (insert fs key value) = if key ∈ keys fs then keys fs else keys fs ++ [key] := by
  induction fs with
  | nil => rfl
  | cons f fs ih =>
    obtain ⟨k, v⟩ := f
    unfold insert
    by_cases hk : k = key
    · simp [hk]
    · have hmem : key ∈ keys ((k, v) :: fs) ↔ key ∈ keys fs := by simp [Ne.symm hk]
      rw [if_neg hk, keys_cons, ih]
      simp only [hmem]
      split <;> rfl

theorem insert_of_not_mem (value : α) (h : key ∉ keys fs) :
    insert fs key value = fs ++ [(key, value)] := by
  induction fs with
  | nil => rfl
  | cons f fs ih =>
    obtain ⟨hne, hrest⟩ := not_or.mp (mt List.mem_cons.mpr h)
    rw [insert, if_neg (Ne.symm hne), ih hrest]
    rfl

/-- Writing the value that a key has changes nothing. -/
theorem insert_of_get? {value : α} (h : get? fs key = some value) : insert fs key value = fs := by
  fun_induction insert fs key value <;> simp_all [get?]

theorem nodup_keys_insert (h : (keys fs).Nodup) (key : String) (value : α) :
    (keys (insert fs key value)).Nodup := by
  rw [keys_insert]
  split
  · exact h
  · rename_i hkey
    rw [List.nodup_append]
    refine ⟨h, by simp, fun k hk l hl heq => hkey ?_⟩
    rw [← List.mem_singleton.mp hl, ← heq]
    exact hk

theorem nodup_keys_insertAll (entries : List (String × α)) (h : (keys fs).Nodup) :
    (keys (insertAll fs entries)).Nodup := by
  unfold insertAll
  induction entries generalizing fs with
  | nil => exact h
  | cons e entries ih => exact ih (nodup_keys_insert h e.1 e.2)

/-- Fields whose keys are all new are written behind each other. -/
theorem insertAll_of_nodup (entries : List (String × α)) (h : (keys (fs ++ entries)).Nodup) :
    insertAll fs entries = fs ++ entries := by
  induction entries generalizing fs with
  | nil => rw [List.append_nil]; rfl
  | cons e entries ih =>
    have hfresh : e.1 ∉ keys fs := fun hmem => by
      rw [keys, List.map_append, List.nodup_append] at h
      exact h.2.2 _ hmem _ List.mem_cons_self rfl
    show insertAll (insert fs e.1 e.2) entries = _
    rw [insert_of_not_mem e.2 hfresh, ih (by simpa using h), List.append_assoc]
    rfl

theorem ofEntries_of_nodup {entries : List (String × α)} (h : (keys entries).Nodup) :
    ofEntries entries = entries :=
  insertAll_of_nodup entries h

theorem nodup_keys_ofEntries (entries : List (String × α)) : (keys (ofEntries entries)).Nodup :=
  nodup_keys_insertAll entries List.nodup_nil

theorem mem_insert {e : String × α} {value : α} (h : e ∈ insert fs key value) :
    e = (key, value) ∨ e ∈ fs := by
  fun_induction insert fs key value <;> grind

/-! ### Lookup -/

theorem isSome_get?_iff : (get? fs key).isSome ↔ key ∈ keys fs := by
  induction fs with
  | nil => simp [get?, keys]
  | cons f fs ih =>
    rw [get?, keys_cons, List.mem_cons, @eq_comm _ key]
    split
    · simp [*]
    · rw [ih]
      simp [*]

theorem get?_eq_none_of_not_mem (h : key ∉ keys fs) : get? fs key = none := by
  rw [← Option.not_isSome_iff_eq_none, isSome_get?_iff]
  exact h

theorem get?_eq_some_iff {v : α} (h : (keys fs).Nodup) :
    get? fs key = some v ↔ (key, v) ∈ fs := by
  refine ⟨mem_of_get?, fun hmem => ?_⟩
  induction fs with
  | nil => simp at hmem
  | cons f fs ih =>
    obtain ⟨k, w⟩ := f
    obtain ⟨hfresh, hrest⟩ := List.nodup_cons.mp h
    unfold get?
    rcases List.mem_cons.mp hmem with heq | hmem
    · obtain ⟨rfl, rfl⟩ := Prod.mk.inj heq
      rw [if_pos rfl]
    · have hk : k ≠ key := fun heq => hfresh (List.mem_map.mpr ⟨(key, v), hmem, heq.symm⟩)
      rw [if_neg hk, ih hrest hmem]

theorem eq_of_get?_eq (hkeys : keys fs = keys gs) (hnodup : (keys fs).Nodup)
    (h : ∀ key, get? fs key = get? gs key) : fs = gs := by
  induction fs generalizing gs with
  | nil => exact (List.map_eq_nil_iff.mp hkeys.symm).symm
  | cons f fs ih =>
    cases gs with
    | nil => cases hkeys
    | cons g gs =>
      obtain ⟨k, v⟩ := f
      obtain ⟨l, w⟩ := g
      rw [keys_cons, keys_cons] at hkeys
      obtain ⟨rfl, hrest⟩ := List.cons.inj hkeys
      obtain ⟨hfresh, hnodup⟩ := List.nodup_cons.mp hnodup
      have hvalue : v = w := by simpa [get?] using h k
      have hget (key : String) : get? fs key = get? gs key := by
        by_cases hkey : k = key
        · subst hkey
          rw [get?_eq_none_of_not_mem hfresh, get?_eq_none_of_not_mem (hrest ▸ hfresh)]
        · simpa [get?, hkey] using h key
      rw [hvalue, ih hrest hnodup hget]

theorem get?_eq_of_perm (hperm : fs.Perm gs) (h : (keys fs).Nodup) (key : String) :
    get? fs key = get? gs key := by
  have hgs : (keys gs).Nodup := (hperm.map Prod.fst).nodup_iff.mp h
  refine Option.ext fun v => ?_
  rw [get?_eq_some_iff h, get?_eq_some_iff hgs, hperm.mem_iff]

theorem keys_map (f : String → α → β) (fs : Fields α) :
    keys (fs.map fun e => (e.1, f e.1 e.2)) = keys fs := by
  simp [keys, Function.comp_def]

theorem get?_map (f : String → α → β) (fs : Fields α) (key : String) :
    get? (fs.map fun e => (e.1, f e.1 e.2)) key = (get? fs key).map (f key) := by
  induction fs with
  | nil => rfl
  | cons e fs ih =>
    simp only [List.map_cons, get?]
    split
    · rename_i hkey
      rw [hkey]
      rfl
    · exact ih

theorem insert_map (f : String → α → β) (fs : Fields α) (key : String) (value : α) :
    insert (fs.map fun e => (e.1, f e.1 e.2)) key (f key value) =
      (insert fs key value).map fun e => (e.1, f e.1 e.2) := by
  induction fs with
  | nil => rfl
  | cons e fs ih =>
    obtain ⟨k, v⟩ := e
    simp only [List.map_cons, insert]
    split
    · rename_i hkey
      rw [List.map_cons, hkey]
    · rw [List.map_cons, ih]

/-- A computation on every value of fields has a result if it has one on each of them. -/
theorem mapM_values_eq_ok {f : α → Except ε β} {fs : Fields α} {gs : Fields β}
    (h : (fs.mapM fun e => (e.1, ·) <$> f e.2) = .ok gs) :
    keys gs = keys fs ∧ ∀ key, (get? fs key).map f = (get? gs key).map .ok := by
  rw [mapM_eq_ok] at h
  induction fs generalizing gs with
  | nil =>
    obtain rfl : gs = [] := by simpa using h.symm
    exact ⟨rfl, fun _ => rfl⟩
  | cons e fs ih =>
    cases gs with
    | nil => simp at h
    | cons g gs =>
      obtain ⟨hfirst, hrest⟩ := List.cons.inj h
      obtain ⟨w, hw, rfl⟩ := map_eq_ok.mp hfirst
      obtain ⟨hkeys, hget⟩ := ih hrest
      refine ⟨congrArg (e.1 :: ·) hkeys, fun key => ?_⟩
      simp only [get?]
      split
      · simp [hw]
      · exact hget key

/-! ### Sorted fields -/

open Json (sortByKey)

theorem perm_sortByKey (fs : Fields α) : (sortByKey fs).Perm fs := List.mergeSort_perm fs _

theorem nodup_keys_sortByKey (h : (keys fs).Nodup) : (keys (sortByKey fs)).Nodup :=
  ((perm_sortByKey fs).map Prod.fst).nodup_iff.mpr h

theorem get?_sortByKey (h : (keys fs).Nodup) (key : String) :
    get? (sortByKey fs) key = get? fs key :=
  get?_eq_of_perm (perm_sortByKey fs) (nodup_keys_sortByKey h) key

theorem pairwise_keys_sortByKey (fs : Fields α) : (keys (sortByKey fs)).Pairwise (· ≤ ·) :=
  List.pairwise_map.mpr (pairwise_mergeSort_text Prod.fst fs)

/-- Sorted fields have the same keys in the same order if each key of one is a key of the other. -/
theorem keys_sortByKey_eq_iff (hfs : (keys fs).Nodup) (hgs : (keys gs).Nodup) :
    keys (sortByKey fs) = keys (sortByKey gs) ↔
      ∀ key, (get? fs key).isSome = (get? gs key).isSome := by
  have hperm (fs : Fields α) : (keys (sortByKey fs)).Perm (keys fs) :=
    (perm_sortByKey fs).map Prod.fst
  have hmem (key : String) : (get? fs key).isSome = (get? gs key).isSome ↔
      (key ∈ keys fs ↔ key ∈ keys gs) := by
    rw [Bool.eq_iff_iff, isSome_get?_iff, isSome_get?_iff]
  constructor
  · intro h key
    rw [hmem, ← (hperm fs).mem_iff, h, (hperm gs).mem_iff]
  · intro h
    have hkeys : (keys fs).Perm (keys gs) :=
      (List.perm_ext_iff_of_nodup hfs hgs).mpr fun key => (hmem key).mp (h key)
    exact List.Perm.eq_of_pairwise (fun _ _ _ _ => String.le_antisymm)
      (pairwise_keys_sortByKey fs) (pairwise_keys_sortByKey gs)
      ((hperm fs).trans (hkeys.trans (hperm gs).symm))

theorem pairwise_lt_keys_sortByKey (h : (keys fs).Nodup) :
    (keys (sortByKey fs)).Pairwise (· < ·) :=
  List.pairwise_map.mpr (pairwise_lt_mergeSort_text h)

/-- Fields are the same once they are sorted if each key is looked up to the same. -/
theorem sortByKey_eq_iff (hfs : (keys fs).Nodup) (hgs : (keys gs).Nodup) :
    sortByKey fs = sortByKey gs ↔ ∀ key, get? fs key = get? gs key := by
  constructor
  · intro h key
    rw [← get?_sortByKey hfs, h, get?_sortByKey hgs]
  · intro h
    refine eq_of_get?_eq ?_ (nodup_keys_sortByKey hfs) fun key => ?_
    · exact (keys_sortByKey_eq_iff hfs hgs).mpr fun key => congrArg Option.isSome (h key)
    · rw [get?_sortByKey hfs, get?_sortByKey hgs, h]

end Fields

end PartitionPruning
