/-! Fields: values under distinct keys, in the order in which the keys were first written. -/

namespace PartitionPruning

/-- Pairs of a key and a value. All functions that build fields keep the keys distinct. -/
abbrev Fields (α : Type) := List (String × α)

namespace Fields

variable {α : Type}

def get? : Fields α → String → Option α
  | [], _ => none
  | (k, v) :: rest, key => if k = key then some v else get? rest key

/-- Writes a value in the place of the key's old one, or else at the end. -/
def insert : Fields α → String → α → Fields α
  | [], key, value => [(key, value)]
  | (k, v) :: rest, key, value =>
    if k = key then (k, value) :: rest else (k, v) :: insert rest key value

def keys (fs : Fields α) : List String := fs.map Prod.fst

def values (fs : Fields α) : List α := fs.map Prod.snd

def contains (fs : Fields α) (key : String) : Bool := (get? fs key).isSome

def insertAll (fs : Fields α) (entries : List (String × α)) : Fields α :=
  entries.foldl (fun fs e => insert fs e.1 e.2) fs

/-- The fields of entries that may repeat a key: the first place and the last value count. -/
def ofEntries (entries : List (String × α)) : Fields α := insertAll [] entries

theorem get?_insert_self (fs : Fields α) (key : String) (value : α) :
    get? (insert fs key value) key = some value := by
  fun_induction insert fs key value <;> simp_all [get?]

theorem get?_insert_of_ne (fs : Fields α) {key other : String} (value : α) (h : key ≠ other) :
    get? (insert fs key value) other = get? fs other := by
  fun_induction insert fs key value <;> simp_all [get?]

theorem mem_of_get? {fs : Fields α} {key : String} {value : α} (h : get? fs key = some value) :
    (key, value) ∈ fs := by
  fun_induction get? fs key <;> simp_all

end Fields

end PartitionPruning
