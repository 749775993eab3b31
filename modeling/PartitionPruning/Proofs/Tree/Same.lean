import PartitionPruning.Proofs.Tree.Fields

/-! Trees that are the same but for positions, the order of fields, and the parts at given paths. A
path is the keys of objects from the root down. -/

namespace PartitionPruning

namespace Node

inductive Shape where
  | null
  | bool
  | number
  | string
  | array
  | object

def shape : Node → Shape
  | null => .null
  | bool _ => .bool
  | .number _ => .number
  | string _ => .string
  | array _ => .array
  | object _ => .object

/-- The trees are the same up to the order of the fields of any object, the values of positions,
and the parts at `free` paths, which may also be missing. Numbers are the same if their texts
are. -/
inductive SameBut : (List String → Prop) → Node → Node → Prop
  | null {free : List String → Prop} : SameBut free null null
  | bool {free : List String → Prop} (b : Bool) : SameBut free (bool b) (bool b)
  | number {free : List String → Prop} {n m : Number} (digits : n.digits = m.digits) :
    SameBut free (.number n) (.number m)
  | string {free : List String → Prop} (s : String) : SameBut free (string s) (string s)
  | array {free : List String → Prop} {xs ys : List Node} (length : xs.length = ys.length)
    (items : ∀ (i : Nat) (x y : Node), xs[i]? = some x → ys[i]? = some y →
      SameBut (fun _ => False) x y) :
    SameBut free (array xs) (array ys)
  | object {free : List String → Prop} {fs gs : Fields Node}
    (keys : ∀ key, ¬ free [key] → (Fields.get? fs key).isSome = (Fields.get? gs key).isSome)
    (values : ∀ key v w, ¬ free [key] → key ≠ "query_location" →
      Fields.get? fs key = some v → Fields.get? gs key = some w →
      SameBut (fun path => free (key :: path)) v w) :
    SameBut free (object fs) (object gs)

/-- The trees are the same up to the order of fields and the values of positions. -/
def Same (a b : Node) : Prop := SameBut (fun _ => False) a b

/-- What two objects with the same parts but for `free` have in the field `key`. -/
def SameField (free : List String → Prop) (key : String) (v? w? : Option Node) : Prop :=
  ¬ free [key] → v?.isSome = w?.isSome ∧
    ∀ v w, key ≠ "query_location" → v? = some v → w? = some w →
      SameBut (fun path => free (key :: path)) v w

variable {free : List String → Prop} {a b v w : Node} {fs gs : Fields Node} {key : String}

theorem sameBut_object_iff : SameBut free (object fs) (object gs) ↔
    ∀ key, SameField free key (Fields.get? fs key) (Fields.get? gs key) := by
  constructor
  · intro h key hfree
    cases h with
    | object keys values => exact ⟨keys key hfree, fun v w => values key v w hfree⟩
  · intro h
    exact .object (fun key hfree => (h key hfree).1) fun key v w hfree => (h key hfree).2 v w

theorem sameBut_array_iff {xs ys : List Node} : SameBut free (array xs) (array ys) ↔
    xs.length = ys.length ∧ ∀ (i : Nat) (x y : Node), xs[i]? = some x → ys[i]? = some y →
      Same x y := by
  constructor
  · intro h
    cases h with
    | array length items => exact ⟨length, items⟩
  · rintro ⟨length, items⟩
    exact .array length items

theorem SameBut.shape_eq (h : SameBut free a b) : a.shape = b.shape := by
  cases h <;> rfl

theorem SameBut.text?_eq (h : SameBut free a b) : a.text? = b.text? := by
  cases h <;> rfl

theorem SameBut.bool?_eq (h : SameBut free a b) : a.bool? = b.bool? := by
  cases h <;> rfl

/-- The value of a field whose path is not free. -/
theorem SameBut.sameField (h : SameBut free a b) (key : String) :
    SameField free key (a.field? key) (b.field? key) := by
  cases h with
  | object keys values =>
    exact fun hfree => ⟨keys key hfree, fun v w => values key v w hfree⟩
  | _ =>
    refine fun _ => ⟨rfl, ?_⟩
    intro _ v w hv
    cases hv

/-- A function that does not tell apart the values of a field does not tell apart the trees. -/
theorem SameBut.field?_bind {α : Type} {f : Node → Option α} (h : SameBut free a b)
    (hfree : ¬ free [key]) (hkey : key ≠ "query_location")
    (hf : ∀ v w, SameBut (fun path => free (key :: path)) v w → f v = f w) :
    (a.field? key).bind f = (b.field? key).bind f := by
  obtain ⟨hsome, hvalues⟩ := h.sameField key hfree
  cases ha : a.field? key with
  | none =>
    have hb : b.field? key = none := by
      rw [← Option.not_isSome_iff_eq_none, ← hsome, ha]
      exact Bool.false_ne_true
    rw [hb]
  | some v =>
    obtain ⟨w, hb⟩ := Option.isSome_iff_exists.mp (hsome ▸ Option.isSome_of_eq_some ha)
    rw [hb]
    exact hf v w (hvalues v w hkey ha hb)

theorem sameBut_congr {free' : List String → Prop} (h : ∀ path, free path ↔ free' path) :
    SameBut free a b ↔ SameBut free' a b := by
  rw [funext fun path => propext (h path)]

theorem sameBut_of_isScalar (h : a.isScalar = true) : SameBut free a a := by
  cases a with
  | null => exact .null
  | bool b => exact .bool b
  | number n => exact .number rfl
  | string s => exact .string s
  | array _ => contradiction
  | object _ => contradiction

theorem same_iff : a.Same b ↔ SameBut (· ∈ ([] : List (List String))) a b :=
  sameBut_congr fun _ => by simp

/-! ### Writing a field -/

theorem field?_withField_self {n r : Node} (h : n.withField key v = .ok r) :
    r.field? key = some v := by
  cases n <;> simp only [withField, reduceCtorEq, Except.ok.injEq] at h
  rw [← h]
  exact Fields.get?_insert_self _ key v

theorem field?_withField_of_ne {n r : Node} {other : String} (h : n.withField key v = .ok r)
    (hne : key ≠ other) : r.field? other = n.field? other := by
  cases n <;> simp only [withField, reduceCtorEq, Except.ok.injEq] at h
  rw [← h]
  exact Fields.get?_insert_of_ne _ v hne

theorem withField_of_field? {n : Node} (h : n.field? key = some v) : n.withField key v = .ok n := by
  cases n <;> simp only [field?, reduceCtorEq] at h
  rw [withField, Fields.insert_of_get? h]

theorem sameField_congr {free' : List String → Prop} {v? w? : Option Node}
    (h : ∀ path, free (key :: path) ↔ free' (key :: path)) :
    SameField free key v? w? ↔ SameField free' key v? w? := by
  have hbelow : (fun path => free (key :: path)) = fun path => free' (key :: path) :=
    funext fun path => propext (h path)
  rw [SameField, SameField, h [], hbelow]

theorem sameField_some_iff (hfree : ¬ free [key]) (hkey : key ≠ "query_location") :
    SameField free key (some v) (some w) ↔ SameBut (fun path => free (key :: path)) v w := by
  constructor
  · intro h
    exact (h hfree).2 v w hkey rfl rfl
  · intro h _
    refine ⟨rfl, fun x y _ hx hy => ?_⟩
    rw [← Option.some.inj hx, ← Option.some.inj hy]
    exact h

/-- After the same field of two objects is written, what is the same about them is settled by the
values written, and by all other fields. -/
theorem sameBut_withField_iff {free' : List String → Prop} {r s : Node}
    (ha : a.withField key v = .ok r) (hb : b.withField key w = .ok s)
    (hother : ∀ other, other ≠ key → ∀ path, free' (other :: path) ↔ free (other :: path))
    (hkey : SameField free' key (some v) (some w) ↔
      SameField free key (a.field? key) (b.field? key)) :
    SameBut free' r s ↔ SameBut free a b := by
  have hget (other : String) : SameField free' other (r.field? other) (s.field? other) ↔
      SameField free other (a.field? other) (b.field? other) := by
    by_cases hne : other = key
    · rw [hne, field?_withField_self ha, field?_withField_self hb]
      exact hkey
    · rw [field?_withField_of_ne ha (Ne.symm hne), field?_withField_of_ne hb (Ne.symm hne)]
      exact sameField_congr (hother other hne)
  cases a <;> simp only [withField, reduceCtorEq, Except.ok.injEq] at ha
  cases b <;> simp only [withField, reduceCtorEq, Except.ok.injEq] at hb
  subst ha hb
  rw [sameBut_object_iff, sameBut_object_iff]
  exact forall_congr' hget

/-- Writing the same scalar into a field of two objects hides what was there. -/
theorem sameBut_overwritten_iff {paths : List (List String)} {r s : Node}
    (ha : a.withField key v = .ok r) (hb : b.withField key v = .ok s) (hv : v.isScalar = true) :
    SameBut (· ∈ paths) r s ↔ SameBut (· ∈ [key] :: paths) a b := by
  refine sameBut_withField_iff ha hb (fun other hne path => ?_) ⟨fun _ hfree => ?_, fun _ _ => ?_⟩
  · simp [hne]
  · exact absurd List.mem_cons_self hfree
  · refine ⟨rfl, fun x y _ hx hy => ?_⟩
    rw [← Option.some.inj hx, ← Option.some.inj hy]
    exact sameBut_of_isScalar hv

/-- Writing a new form of a field's value into two objects keeps of them what it keeps of the
values. -/
theorem same_rewritten_iff {paths : List (List String)} {r s x y : Node}
    (ha : a.withField key v = .ok r) (hb : b.withField key w = .ok s)
    (hx : a.field? key = some x) (hy : b.field? key = some y) (hkey : key ≠ "query_location")
    (hpaths : [] ∉ paths) (hvalue : v.Same w ↔ SameBut (· ∈ paths) x y) :
    r.Same s ↔ SameBut (· ∈ paths.map (key :: ·)) a b := by
  refine sameBut_withField_iff ha hb (fun other hne path => ?_) ?_
  · simp [Ne.symm hne]
  · have hfree : [key] ∉ paths.map (key :: ·) := by simpa using hpaths
    rw [hx, hy, sameField_some_iff not_false hkey, sameField_some_iff hfree hkey]
    exact hvalue.trans (sameBut_congr fun path => by simp)

end Node

end PartitionPruning
