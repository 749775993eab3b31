import PartitionPruning.Expr.Kind
import PartitionPruning.Proofs.Tree.Same

/-! When two trees are the same query: they differ at most in positions, in the order of fields, and
in the literals of their constants. -/

namespace PartitionPruning

/-- The literals whose value does not tell queries apart. -/
inductive Literal where
  | text
  | integer
  | decimal
  deriving DecidableEq, Repr

/-- Where a constant holds its literal; a decimal comes with the width and the scale that its value
needs. -/
def Literal.paths : Literal → List (List String)
  | text | integer => [["value", "value"]]
  | decimal => [["value", "value"], ["value", "type", "type_info", "width"],
      ["value", "type", "type_info", "scale"]]

namespace Node

def typeLiteral? (type : Node) : Option Literal :=
  match (type.field? "id").bind text? with
  | some "VARCHAR" => some .text
  | some "INTEGER" => some .integer
  | some "DECIMAL" => some .decimal
  | _ => none

def payloadIsNull (payload : Node) : Bool := (payload.field? "is_null").bind bool? = some true

/-- The literals of the payload of a constant; a null is none. -/
def payloadLiteral? (payload : Node) : Option Literal :=
  if payload.payloadIsNull then none else (payload.field? "type").bind typeLiteral?

def literal? (constant : Node) : Option Literal := (constant.field? "value").bind payloadLiteral?

/-- The paths of a constant that do not tell queries apart. -/
def literalPaths (constant : Node) : List (List String) := constant.literal?.elim [] Literal.paths

/-- The trees are the same query: up to the order of the fields of any object, the values of
positions, and the literals of constants that stand in no other constant. Numbers are the same if
their texts are. -/
inductive SameQuery : Node → Node → Prop
  | constant {a b : Node} (isConstant : a.isConstant = true ∧ b.isConstant = true)
    (same : SameBut (· ∈ a.literalPaths) a b) : SameQuery a b
  | null : SameQuery null null
  | bool (b : Bool) : SameQuery (bool b) (bool b)
  | number {n m : Number} (digits : n.digits = m.digits) : SameQuery (.number n) (.number m)
  | string (s : String) : SameQuery (string s) (string s)
  | array {xs ys : List Node} (length : xs.length = ys.length)
    (items : ∀ (i : Nat) (x y : Node), xs[i]? = some x → ys[i]? = some y → SameQuery x y) :
    SameQuery (array xs) (array ys)
  | object {fs gs : Fields Node}
    (isConstant : (object fs).isConstant = false ∧ (object gs).isConstant = false)
    (keys : ∀ key, (Fields.get? fs key).isSome = (Fields.get? gs key).isSome)
    (values : ∀ key v w, key ≠ "query_location" → Fields.get? fs key = some v →
      Fields.get? gs key = some w → SameQuery v w) :
    SameQuery (object fs) (object gs)

variable {a b : Node} {free : List String → Prop}

/-! ### The rule for each kind of node -/

theorem sameQuery_constant_iff (ha : a.isConstant = true) (hb : b.isConstant = true) :
    SameQuery a b ↔ SameBut (· ∈ a.literalPaths) a b := by
  refine ⟨fun h => ?_, .constant ⟨ha, hb⟩⟩
  cases h with
  | constant _ same => exact same
  | object isConstant => exact absurd ha (ne_true_of_eq_false isConstant.1)
  | _ => contradiction

theorem isConstant_of_isScalar (ha : a.isScalar = true) : a.isConstant = false := by
  cases a <;> first | rfl | contradiction

theorem sameQuery_scalar_iff (ha : a.isScalar = true) : SameQuery a b ↔ a.Same b := by
  constructor
  · intro h
    cases h with
    | constant isConstant =>
      exact absurd isConstant.1 (ne_true_of_eq_false (isConstant_of_isScalar ha))
    | null => exact .null
    | bool b => exact .bool b
    | number digits => exact .number digits
    | string s => exact .string s
    | array => contradiction
    | object => contradiction
  · intro h
    cases h with
    | null => exact .null
    | bool b => exact .bool b
    | number digits => exact .number digits
    | string s => exact .string s
    | array => contradiction
    | object => contradiction

theorem sameQuery_array_iff {xs ys : List Node} : SameQuery (array xs) (array ys) ↔
    xs.length = ys.length ∧ ∀ (i : Nat) (x y : Node), xs[i]? = some x → ys[i]? = some y →
      SameQuery x y := by
  refine ⟨fun h => ?_, fun ⟨length, items⟩ => .array length items⟩
  cases h with
  | constant isConstant => cases isConstant.1
  | array length items => exact ⟨length, items⟩

theorem sameQuery_object_iff {fs gs : Fields Node} (hfs : (object fs).isConstant = false)
    (hgs : (object gs).isConstant = false) : SameQuery (object fs) (object gs) ↔
    ∀ key, (Fields.get? fs key).isSome = (Fields.get? gs key).isSome ∧
      ∀ v w, key ≠ "query_location" → Fields.get? fs key = some v → Fields.get? gs key = some w →
        SameQuery v w := by
  constructor
  · intro h key
    cases h with
    | constant isConstant => exact absurd isConstant.1 (ne_true_of_eq_false hfs)
    | object _ keys values => exact ⟨keys key, values key⟩
  · intro h
    exact .object ⟨hfs, hgs⟩ (fun key => (h key).1) fun key => (h key).2

/-! ### The literal of a constant is settled by what is the same -/

theorem SameBut.typeLiteral?_eq (h : SameBut free a b) (hid : ¬ free ["id"]) :
    a.typeLiteral? = b.typeLiteral? := by
  have htext : (a.field? "id").bind text? = (b.field? "id").bind text? :=
    h.field?_bind hid (by decide) fun _ _ => SameBut.text?_eq
  rw [typeLiteral?, typeLiteral?, htext]

theorem SameBut.payloadIsNull_eq (h : SameBut free a b) (hnull : ¬ free ["is_null"]) :
    a.payloadIsNull = b.payloadIsNull := by
  have hbool : (a.field? "is_null").bind bool? = (b.field? "is_null").bind bool? :=
    h.field?_bind hnull (by decide) fun _ _ => SameBut.bool?_eq
  rw [payloadIsNull, payloadIsNull, hbool]

theorem SameBut.payloadLiteral?_eq (h : SameBut free a b)
    (hfree : ∀ path ∈ [["is_null"], ["type"], ["type", "id"]], ¬ free path) :
    a.payloadLiteral? = b.payloadLiteral? := by
  simp only [List.forall_mem_cons] at hfree
  obtain ⟨hnull, htype, hid, -⟩ := hfree
  have hliteral : (a.field? "type").bind typeLiteral? = (b.field? "type").bind typeLiteral? :=
    h.field?_bind htype (by decide) fun _ _ hvw => hvw.typeLiteral?_eq hid
  rw [payloadLiteral?, payloadLiteral?, hliteral, h.payloadIsNull_eq hnull]

theorem SameBut.literal?_eq (h : SameBut free a b)
    (hfree : ∀ path ∈ [["value"], ["value", "is_null"], ["value", "type"], ["value", "type", "id"]],
      ¬ free path) : a.literal? = b.literal? := by
  simp only [List.forall_mem_cons] at hfree
  obtain ⟨hvalue, hnull, htype, hid, -⟩ := hfree
  refine h.field?_bind hvalue (by decide) fun _ _ hvw => hvw.payloadLiteral?_eq ?_
  simp only [List.forall_mem_cons]
  exact ⟨hnull, htype, hid, by simp⟩

end Node

end PartitionPruning
