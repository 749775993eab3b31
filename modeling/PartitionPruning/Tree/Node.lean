import PartitionPruning.Fault
import PartitionPruning.Tree.Fields
import PartitionPruning.Tree.Number

/-! Nodes of serialized expression trees. Every JSON shape is a node, so a tree may hold parts that
no operation knows about, and they pass through all of them. -/

namespace PartitionPruning

inductive Node where
  | null
  | bool (value : Bool)
  | number (value : Number)
  | string (value : String)
  | array (items : List Node)
  | object (fields : List (String × Node))
  deriving Inhabited

namespace Node

/-! ### Equality -/

mutual

/-- The trees are the same up to `number` on their numbers. The order of fields matters. -/
def matchesBy (number : Number → Number → Bool) : Node → Node → Bool
  | null, null => true
  | bool a, bool b => a == b
  | .number a, .number b => number a b
  | string a, string b => a == b
  | array xs, array ys => itemsMatchBy number xs ys
  | object fs, object gs => fieldsMatchBy number fs gs
  | _, _ => false

def itemsMatchBy (number : Number → Number → Bool) : List Node → List Node → Bool
  | [], [] => true
  | x :: xs, y :: ys => matchesBy number x y && itemsMatchBy number xs ys
  | _, _ => false

def fieldsMatchBy (number : Number → Number → Bool) :
    List (String × Node) → List (String × Node) → Bool
  | [], [] => true
  | (k, x) :: fs, (l, y) :: gs => k == l && matchesBy number x y && fieldsMatchBy number fs gs
  | _, _ => false

end

/-- Equal trees, with numbers compared as numbers of their kind. -/
def sameValue (a b : Node) : Bool := matchesBy Number.sameNumber a b

mutual

theorem matchesBy_refl : (n : Node) → matchesBy (· == ·) n n = true
  | null => rfl
  | bool _ => by simp [matchesBy]
  | .number _ => by simp [matchesBy]
  | string _ => by simp [matchesBy]
  | array xs => by simp [matchesBy, itemsMatchBy_refl xs]
  | object fs => by simp [matchesBy, fieldsMatchBy_refl fs]

theorem itemsMatchBy_refl : (xs : List Node) → itemsMatchBy (· == ·) xs xs = true
  | [] => rfl
  | x :: xs => by simp [itemsMatchBy, matchesBy_refl x, itemsMatchBy_refl xs]

theorem fieldsMatchBy_refl : (fs : List (String × Node)) → fieldsMatchBy (· == ·) fs fs = true
  | [] => rfl
  | (_, x) :: fs => by simp [fieldsMatchBy, matchesBy_refl x, fieldsMatchBy_refl fs]

end

mutual

theorem eq_of_matchesBy : (a b : Node) → matchesBy (· == ·) a b = true → a = b
  | null, b, h => by cases b <;> simp_all [matchesBy]
  | bool _, b, h => by cases b <;> simp_all [matchesBy]
  | .number _, b, h => by cases b <;> simp_all [matchesBy]
  | string _, b, h => by cases b <;> simp_all [matchesBy]
  | array xs, b, h => by
    cases b <;> simp_all only [matchesBy, Bool.false_eq_true]
    rw [eq_of_itemsMatchBy xs _ h]
  | object fs, b, h => by
    cases b <;> simp_all only [matchesBy, Bool.false_eq_true]
    rw [eq_of_fieldsMatchBy fs _ h]

theorem eq_of_itemsMatchBy : (xs ys : List Node) → itemsMatchBy (· == ·) xs ys = true → xs = ys
  | [], ys, h => by cases ys <;> simp_all [itemsMatchBy]
  | x :: xs, ys, h => by
    cases ys with
    | nil => simp [itemsMatchBy] at h
    | cons y ys =>
      simp only [itemsMatchBy, Bool.and_eq_true] at h
      rw [eq_of_matchesBy x y h.1, eq_of_itemsMatchBy xs ys h.2]

theorem eq_of_fieldsMatchBy : (fs gs : List (String × Node)) →
    fieldsMatchBy (· == ·) fs gs = true → fs = gs
  | [], gs, h => by cases gs <;> simp_all [fieldsMatchBy]
  | (k, x) :: fs, gs, h => by
    match gs with
    | [] => simp [fieldsMatchBy] at h
    | (l, y) :: gs =>
      simp only [fieldsMatchBy, Bool.and_eq_true, beq_iff_eq] at h
      rw [h.1.1, eq_of_matchesBy x y h.1.2, eq_of_fieldsMatchBy fs gs h.2]

end

instance : DecidableEq Node := fun a b =>
  decidable_of_iff (matchesBy (· == ·) a b = true)
    ⟨eq_of_matchesBy a b, fun h => h ▸ matchesBy_refl a⟩

/-! ### Access -/

def field? : Node → String → Option Node
  | object fs, key => Fields.get? fs key
  | _, _ => none

def isNull : Node → Bool
  | null => true
  | _ => false

/-- The value of a field, where a null counts as absent. -/
def present? (n : Node) (key : String) : Option Node := (n.field? key).filter fun v => !v.isNull

def fields? : Node → Option (Fields Node)
  | object fs => some fs
  | _ => none

def items? : Node → Option (List Node)
  | array xs => some xs
  | _ => none

def text? : Node → Option String
  | string s => some s
  | _ => none

def bool? : Node → Option Bool
  | bool b => some b
  | _ => none

def int64? : Node → Option Int64
  | .number n => n.toInt64?
  | _ => none

def double? : Node → Option Double
  | .number n => some n.toDouble
  | _ => none

/-- Neither an array nor an object. -/
def isScalar : Node → Bool
  | array _ | object _ => false
  | _ => true

def class? (n : Node) : Option String := (n.field? "class").bind text?

def type? (n : Node) : Option String := (n.field? "type").bind text?

def itemsOf? (n : Node) (key : String) : Option (List Node) := (n.field? key).bind items?

/-- The items of the field `key`, none if it is not an array. -/
def itemsOf (n : Node) (key : String) : List Node := (n.itemsOf? key).getD []

/-- A short description: the class and type of an object that has them, or else the kind of
node. -/
def describe : Node → String
  | null => "null"
  | bool _ => "boolean"
  | .number _ => "number"
  | string _ => "string"
  | array xs => "array of " ++ natText xs.length
  | object fs =>
    match class? (object fs), type? (object fs) with
    | some c, some t => c ++ "/" ++ t
    | none, some t => t
    | some c, none => c
    | none, none => "object"

def require (n : Node) (key : String) : Except Fault Node :=
  match n.present? key with
  | some v => .ok v
  | none => .error (.malformed (.missingField n.describe key))

def withField (n : Node) (key : String) (value : Node) : Except Fault Node :=
  match n with
  | object fs => .ok (object (Fields.insert fs key value))
  | n => .error (.malformed (.noFields key n.describe))

/-- The nodes a search goes on to. Of the fields of an object the first of `children`, `child`, and
the pair of `left` and `right` counts; without any of them all values do. -/
def searchChildren : Node → List Node
  | array xs => xs
  | object fs =>
    match Fields.get? fs "children" with
    | some (array xs) => xs
    | some null => []
    | some other => [other]
    | none =>
      match Fields.get? fs "child" with
      | some child => [child]
      | none =>
        match Fields.get? fs "left", Fields.get? fs "right" with
        | some left, some right => [left, right]
        | _, _ => Fields.values fs
  | _ => []

/-! ### Size -/

theorem sizeOf_lt_of_mem_fields {fs : List (String × Node)} {key : String} {n : Node}
    (h : (key, n) ∈ fs) : sizeOf n < sizeOf (object fs) := by
  have := List.sizeOf_lt_of_mem h
  simp only [Prod.mk.sizeOf_spec, object.sizeOf_spec] at this ⊢
  omega

theorem sizeOf_lt_of_mem_items {xs : List Node} {n : Node} (h : n ∈ xs) :
    sizeOf n < sizeOf (array xs) := by
  have := List.sizeOf_lt_of_mem h
  simp only [array.sizeOf_spec]
  omega

theorem sizeOf_lt_of_field? {n v : Node} {key : String} (h : n.field? key = some v) :
    sizeOf v < sizeOf n := by
  cases n <;> simp only [field?, reduceCtorEq] at h
  exact sizeOf_lt_of_mem_fields (Fields.mem_of_get? h)

theorem sizeOf_lt_of_present? {n v : Node} {key : String} (h : n.present? key = some v) :
    sizeOf v < sizeOf n :=
  sizeOf_lt_of_field? (Option.filter_eq_some_iff.mp h).1

theorem present?_of_require {n v : Node} {key : String} (h : n.require key = .ok v) :
    n.present? key = some v := by
  unfold require at h
  split at h <;> simp_all

theorem sizeOf_lt_of_require {n v : Node} {key : String} (h : n.require key = .ok v) :
    sizeOf v < sizeOf n :=
  sizeOf_lt_of_present? (present?_of_require h)

theorem items?_eq_some {n : Node} {xs : List Node} (h : n.items? = some xs) : n = array xs := by
  cases n <;> simp_all [items?]

theorem sizeOf_lt_of_mem_items? {n v : Node} {xs : List Node} (h : n.items? = some xs)
    (hv : v ∈ xs) : sizeOf v < sizeOf n := by
  rw [items?_eq_some h]
  exact sizeOf_lt_of_mem_items hv

theorem sizeOf_lt_of_mem_itemsOf? {n v : Node} {key : String} {xs : List Node}
    (h : n.itemsOf? key = some xs) (hv : v ∈ xs) : sizeOf v < sizeOf n := by
  obtain ⟨w, hf, hi⟩ := Option.bind_eq_some_iff.mp h
  exact Nat.lt_trans (sizeOf_lt_of_mem_items? hi hv) (sizeOf_lt_of_field? hf)

theorem sizeOf_lt_of_mem_itemsOf {n v : Node} {key : String} (h : v ∈ n.itemsOf key) :
    sizeOf v < sizeOf n := by
  unfold itemsOf at h
  cases hx : n.itemsOf? key with
  | none => simp [hx] at h
  | some xs => exact sizeOf_lt_of_mem_itemsOf? hx (by simpa [hx] using h)

theorem sizeOf_lt_of_mem_searchChildren {n v : Node} (h : v ∈ n.searchChildren) :
    sizeOf v < sizeOf n := by
  unfold searchChildren at h
  split at h
  · exact sizeOf_lt_of_mem_items h
  · rename_i fs
    have of_get {key : String} {w : Node} (hw : Fields.get? fs key = some w) :
        sizeOf w < sizeOf (object fs) := sizeOf_lt_of_mem_fields (Fields.mem_of_get? hw)
    split at h
    · rename_i hw
      exact Nat.lt_trans (sizeOf_lt_of_mem_items h) (of_get hw)
    · simp at h
    · rename_i hw
      rw [List.mem_singleton.mp h]
      exact of_get hw
    · split at h
      · rename_i hw
        rw [List.mem_singleton.mp h]
        exact of_get hw
      · split at h
        · rename_i hl hr
          rcases List.mem_cons.mp h with rfl | h
          · exact of_get hl
          · rw [List.mem_singleton.mp h]
            exact of_get hr
        · obtain ⟨⟨key, w⟩, hm, rfl⟩ := List.mem_map.mp h
          exact sizeOf_lt_of_mem_fields hm
  · simp at h

end Node

end PartitionPruning
