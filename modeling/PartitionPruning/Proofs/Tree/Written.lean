import Mathlib.Data.Finset.Card
import PartitionPruning.Proofs.Tree.Fields

/-! Fields as a map that keeps the order of its keys. What has been written settles them: the keys
stand in the order in which they were first written, each with the value that was written last. -/

namespace PartitionPruning

namespace Fields

variable {α : Type} {fs : Fields α} {entries : List (String × α)} {key other : String} {value : α}

/-! ### The value written last -/

/-- The last one of the values that were written under the key. -/
def lastWritten? (entries : List (String × α)) (key : String) : Option α := get? entries.reverse key

theorem lastWritten?_concat_self :
    lastWritten? (entries ++ [(key, value)]) key = some value := by
  rw [lastWritten?, List.reverse_concat, get?, if_pos rfl]

theorem lastWritten?_concat_of_ne (h : key ≠ other) :
    lastWritten? (entries ++ [(key, value)]) other = lastWritten? entries other := by
  rw [lastWritten?, List.reverse_concat, get?, if_neg h, lastWritten?]

theorem get?_eq_some_iff_split : get? fs key = some value ↔
    ∃ before after, fs = before ++ (key, value) :: after ∧ key ∉ keys before := by
  constructor
  · intro h
    induction fs with
    | nil => contradiction
    | cons e fs ih =>
      obtain ⟨k, v⟩ := e
      rw [get?] at h
      split at h
      · rename_i hk
        exact ⟨[], fs, by rw [hk, Option.some.inj h]; rfl, List.not_mem_nil⟩
      · rename_i hk
        obtain ⟨before, after, rfl, hbefore⟩ := ih h
        refine ⟨(k, v) :: before, after, rfl, ?_⟩
        rw [keys_cons, List.mem_cons, not_or]
        exact ⟨Ne.symm hk, hbefore⟩
  · rintro ⟨before, after, rfl, hbefore⟩
    induction before with
    | nil => rw [List.nil_append, get?, if_pos rfl]
    | cons e before ih =>
      rw [keys_cons, List.mem_cons, not_or] at hbefore
      rw [List.cons_append, get?, if_neg (Ne.symm hbefore.1), ih hbefore.2]

theorem lastWritten?_eq_some_iff : lastWritten? entries key = some value ↔
    ∃ before after, entries = before ++ (key, value) :: after ∧ key ∉ keys after := by
  rw [lastWritten?, get?_eq_some_iff_split]
  constructor
  · rintro ⟨before, after, heq, hbefore⟩
    refine ⟨after.reverse, before.reverse, ?_, by simpa [keys] using hbefore⟩
    rw [← List.reverse_reverse entries, heq]
    simp
  · rintro ⟨before, after, rfl, hafter⟩
    exact ⟨after.reverse, before.reverse, by simp, by simpa [keys] using hafter⟩

theorem isSome_lastWritten?_iff : (lastWritten? entries key).isSome ↔ key ∈ keys entries := by
  rw [lastWritten?, isSome_get?_iff]
  simp [keys]

/-! ### What fields record -/

/-- The fields are the map of what was written: they have each key once, in the order in which the
keys were first written, with the value that was written last. -/
structure IsMapOf (fs : Fields α) (entries : List (String × α)) : Prop where
  nodup : (keys fs).Nodup
  ordered : (keys fs).Pairwise fun k l => (keys entries).idxOf k < (keys entries).idxOf l
  get?_eq_some_iff : ∀ key value, get? fs key = some value ↔
    ∃ before after, entries = before ++ (key, value) :: after ∧ key ∉ keys after
  get?_eq_none_iff : ∀ key, get? fs key = none ↔ key ∉ keys entries
  length_eq : fs.length = (keys entries).toFinset.card

/-- What each operation on fields keeps: with the keys and their order, lookup settles the map. -/
structure Records (fs : Fields α) (entries : List (String × α)) : Prop where
  nodup : (keys fs).Nodup
  ordered : (keys fs).Pairwise fun k l => (keys entries).idxOf k < (keys entries).idxOf l
  get? : ∀ key, get? fs key = lastWritten? entries key

theorem Records.mem_keys_iff (h : Records fs entries) : key ∈ keys fs ↔ key ∈ keys entries := by
  rw [← isSome_get?_iff, h.get?, isSome_lastWritten?_iff]

theorem Records.isMapOf (h : Records fs entries) : IsMapOf fs entries where
  nodup := h.nodup
  ordered := h.ordered
  get?_eq_some_iff key value := by rw [h.get?, lastWritten?_eq_some_iff]
  get?_eq_none_iff key := by
    rw [← h.mem_keys_iff, ← isSome_get?_iff, Option.not_isSome_iff_eq_none]
  length_eq := by
    have hkeys : (keys entries).toFinset = (keys fs).toFinset := by
      ext key
      rw [List.mem_toFinset, List.mem_toFinset, h.mem_keys_iff]
    rw [hkeys, List.toFinset_card_of_nodup h.nodup, keys, List.length_map]

theorem records_nil : Records ([] : Fields α) [] := ⟨.nil, .nil, fun _ => rfl⟩

theorem keys_append (entries others : List (String × α)) :
    keys (entries ++ others) = keys entries ++ keys others := List.map_append

/-- Writing a field is recorded. A key that was written before stays where it is, and a new one
comes after all others. -/
theorem Records.insert (h : Records fs entries) (key : String) (value : α) :
    Records (insert fs key value) (entries ++ [(key, value)]) where
  nodup := nodup_keys_insert h.nodup key value
  ordered := by
    -- what comes later does not move the first time that a key was written
    have hold : (keys fs).Pairwise fun k l =>
        (keys entries ++ [key]).idxOf k < (keys entries ++ [key]).idxOf l := by
      refine h.ordered.imp_of_mem fun hk hl hlt => ?_
      rwa [List.idxOf_append_of_mem (h.mem_keys_iff.mp hk),
        List.idxOf_append_of_mem (h.mem_keys_iff.mp hl)]
    rw [keys_append, keys_insert]
    split
    · exact hold
    · rename_i hnew
      rw [h.mem_keys_iff] at hnew
      refine List.pairwise_append.mpr ⟨hold, List.pairwise_singleton _ _, fun k hk l hl => ?_⟩
      have hk := h.mem_keys_iff.mp hk
      rw [List.mem_singleton.mp hl, List.idxOf_append_of_mem hk, List.idxOf_append_of_notMem hnew]
      exact Nat.lt_of_lt_of_le (List.idxOf_lt_length_of_mem hk) (Nat.le_add_right _ _)
  get? other := by
    by_cases hkey : key = other
    · rw [← hkey, get?_insert_self, lastWritten?_concat_self]
    · rw [get?_insert_of_ne fs value hkey, lastWritten?_concat_of_ne hkey, h.get?]

theorem Records.insertAll (h : Records fs entries) (others : List (String × α)) :
    Records (insertAll fs others) (entries ++ others) := by
  induction others generalizing fs entries with
  | nil => rwa [List.append_nil]
  | cons e others ih =>
    rw [← List.singleton_append, ← List.append_assoc]
    exact ih (h.insert e.1 e.2)

theorem records_ofEntries (entries : List (String × α)) : Records (ofEntries entries) entries :=
  records_nil.insertAll entries

/-! ### Sequences of operations -/

/-- An operation on fields: to write one of them, or to collect new fields from entries. -/
inductive Operation (α : Type) where
  | insert (key : String) (value : α)
  | collect (entries : List (String × α))

/-- The fields after an operation. -/
def Operation.apply (fs : Fields α) : Operation α → Fields α
  | insert key value => Fields.insert fs key value
  | collect entries => ofEntries entries

/-- What has been written into the fields after an operation. -/
def Operation.log (entries : List (String × α)) : Operation α → List (String × α)
  | insert key value => entries ++ [(key, value)]
  | collect entries => entries

/-- The fields that operations build from none. -/
def build (operations : List (Operation α)) : Fields α := operations.foldl Operation.apply []

def written (operations : List (Operation α)) : List (String × α) :=
  operations.foldl Operation.log []

theorem Records.apply (h : Records fs entries) (operation : Operation α) :
    Records (operation.apply fs) (operation.log entries) := by
  cases operation with
  | insert key value => exact h.insert key value
  | collect entries => exact records_ofEntries entries

theorem Records.run (h : Records fs entries) (operations : List (Operation α)) :
    Records (operations.foldl Operation.apply fs) (operations.foldl Operation.log entries) := by
  induction operations generalizing fs entries with
  | nil => exact h
  | cons operation operations ih => exact ih (h.apply operation)

theorem isMapOf_build (operations : List (Operation α)) :
    IsMapOf (build operations) (written operations) :=
  (records_nil.run operations).isMapOf

end Fields

end PartitionPruning
