import PartitionPruning.Proofs.Expr.Leaves
import PartitionPruning.Proofs.Itemwise

/-! Expressions as nestings of calls, and what is collected from them. Whatever calls an expression
is built by, the columns and the constants that are collected from it are those it is built from,
each as often as it is given and from left to right. -/

namespace PartitionPruning

namespace Build

/-! ### Calls -/

/-- A call that builds an expression of nothing but a column or a constant. -/
inductive Leaf where
  | column (path : List String) (named : path ≠ [])
  | varchar (value : String)
  | constant (value : Node) (scalar : value.isScalar = true)
  | typedConstant (value : Node) (type : DataType) (scalar : value.isScalar = true)
  | nullConstant

namespace Leaf

def build : Leaf → Except Fault Node
  | column path _ => .ok (reference path)
  | varchar value => .ok (Build.varchar value)
  | constant value _ => Build.constant value
  | typedConstant value type _ => .ok (Build.typedConstant value type)
  | nullConstant => .ok Build.nullConstant

/-- The path of a column. -/
def path? : Leaf → Option (List String)
  | column path _ => some path
  | _ => none

def isColumn (l : Leaf) : Bool := l.path?.isSome

end Leaf

/-- An expression as it is built: the calls, each with the calls that build its operands. -/
inductive Term where
  | leaf (l : Leaf)
  | trueLiteral
  | falseLiteral
  | cast (child : Term) (typeId : String)
  | castAs (child : Term) (type : DataType) (typed : type ≠ .untyped)
  | comparison (op : CompareOp) (left right : Term)
  | conjunction (op : ConjunctionOp) (children : List Term)
  | isNull (child : Term)
  | ifThenElse (condition result otherwise : Term)
  | function (name schema catalog : String) (children : List Term)

namespace Term

mutual

def build : Term → Except Fault Node
  | leaf l => l.build
  | trueLiteral => .ok Build.trueLiteral
  | falseLiteral => .ok Build.falseLiteral
  | cast child typeId => return Build.cast (← child.build) typeId
  | castAs child type _ => do Build.castAs (← child.build) type
  | comparison op left right => return Build.comparison op (← left.build) (← right.build)
  | conjunction op children => return Build.conjunction op (← buildAll children)
  | isNull child => return Build.isNull (← child.build)
  | ifThenElse condition result otherwise =>
    return Build.ifThenElse (← condition.build) (← result.build) (← otherwise.build)
  | function name schema catalog children =>
    return Build.function name schema catalog (← buildAll children)

def buildAll : List Term → Except Fault (List Node)
  | [] => return []
  | t :: ts => return (← t.build) :: (← buildAll ts)

end

mutual

/-- The columns and constants of an expression, from left to right. -/
def leaves : Term → List Leaf
  | leaf l => [l]
  | trueLiteral => [.varchar "t"]
  | falseLiteral => [.varchar "f"]
  | cast child _ => child.leaves
  | castAs child _ _ => child.leaves
  | comparison _ left right => left.leaves ++ right.leaves
  | conjunction _ children => leavesOfAll children
  | isNull child => child.leaves
  | ifThenElse condition result otherwise => condition.leaves ++ result.leaves ++ otherwise.leaves
  | function _ _ _ children => leavesOfAll children

def leavesOfAll : List Term → List Leaf
  | [] => []
  | t :: ts => t.leaves ++ leavesOfAll ts

end

end Term

/-! ### What leaves build -/

/-- A leaf builds a column under its path, or a constant that holds no leaf below it. -/
theorem Leaf.build_cases {l : Leaf} {n : Node} (h : l.build = .ok n) :
    (∃ path, l.path? = some path ∧ path ≠ [] ∧ n = reference path) ∨
      l.path? = none ∧ ∃ type value, n = valueConstant type value ∧ value.isScalar = true ∧
        ∀ p, Node.IsLeafTest p → type.find p = [] := by
  have hplain (id : String) (p : Node → Bool) (hp : Node.IsLeafTest p) :
      (plainType id).find p = [] := find_plainType hp id
  cases l with
  | column path named => exact Or.inl ⟨path, rfl, named, (Except.ok.inj h).symm⟩
  | varchar value => exact Or.inr ⟨rfl, _, _, (Except.ok.inj h).symm, rfl, hplain _⟩
  | constant value scalar =>
    refine Or.inr ⟨rfl, ?_⟩
    cases value with
    | null | bool | number | string => exact ⟨_, _, (Except.ok.inj h).symm, rfl, hplain _⟩
    | array | object => contradiction
  | typedConstant value type scalar =>
    exact Or.inr ⟨rfl, _, _, (Except.ok.inj h).symm, scalar, fun p hp => find_toTypeNode hp type⟩
  | nullConstant => exact Or.inr ⟨rfl, _, _, (Except.ok.inj h).symm, rfl, hplain _⟩

theorem Leaf.exists_build (l : Leaf) : ∃ n, l.build = .ok n := by
  cases l with
  | constant value scalar =>
    cases value with
    | array | object => contradiction
    | _ => exact ⟨_, rfl⟩
  | _ => exact ⟨_, rfl⟩

section

variable {l : Leaf} {n : Node}

theorem Leaf.find_eq_filter (h : l.build = .ok n) {p : Node → Bool} (hp : Node.IsLeafTest p) :
    n.find p = [n].filter p := by
  cases hn : p n with
  | true => rw [Node.find_of_true hn, List.filter_cons_of_pos hn, List.filter_nil]
  | false =>
    rw [List.filter_cons_of_neg (by simp [hn]), List.filter_nil]
    rcases Leaf.build_cases h with ⟨path, -, -, rfl⟩ | ⟨-, type, value, rfl, hscalar, htype⟩
    · exact find_reference hp hn
    · exact find_valueConstant hp (htype p hp) hn hscalar

theorem Leaf.isReference_eq (h : l.build = .ok n) : n.isReference = l.isColumn := by
  unfold Leaf.isColumn
  rcases Leaf.build_cases h with ⟨path, hpath, -, rfl⟩ | ⟨hpath, type, value, rfl, -, -⟩
  · simp [hpath, Node.isReference, kind_reference]
  · simp [hpath, Node.isReference, kind_valueConstant]

theorem Leaf.isConstant_eq (h : l.build = .ok n) : n.isConstant = !l.isColumn := by
  unfold Leaf.isColumn
  rcases Leaf.build_cases h with ⟨path, hpath, -, rfl⟩ | ⟨hpath, type, value, rfl, -, -⟩
  · simp [hpath, Node.isConstant, kind_reference]
  · simp [hpath, Node.isConstant, kind_valueConstant]

theorem Leaf.isSubquery_eq (h : l.build = .ok n) : n.isSubquery = false := by
  rcases Leaf.build_cases h with ⟨path, -, -, rfl⟩ | ⟨-, type, value, rfl, -, -⟩
  · simp [Node.isSubquery, kind_reference]
  · simp [Node.isSubquery, kind_valueConstant]

end

/-! ### What calls build -/

/-- A search for leaves finds, of the nodes that these leaves build, those that satisfy its test. -/
def Collects (n : Node) (leaves : List Leaf) : Prop :=
  ∃ ns, leaves.mapM Leaf.build = .ok ns ∧ ∀ p, Node.IsLeafTest p → n.find p = ns.filter p

section

variable {n a b : Node} {ls ms : List Leaf}

theorem Collects.of_leaf {l : Leaf} (h : l.build = .ok n) : Collects n [l] :=
  ⟨[n], by rw [List.mapM_cons, h]; rfl, fun _ hp => Leaf.find_eq_filter h hp⟩

theorem Collects.of_eq (h : Collects a ls)
    (hfind : ∀ p, Node.IsLeafTest p → n.find p = a.find p) : Collects n ls := by
  obtain ⟨ns, hns, ha⟩ := h
  exact ⟨ns, hns, fun p hp => (hfind p hp).trans (ha p hp)⟩

theorem Collects.append (ha : Collects a ls) (hb : Collects b ms)
    (hfind : ∀ p, Node.IsLeafTest p → n.find p = a.find p ++ b.find p) :
    Collects n (ls ++ ms) := by
  obtain ⟨ns, hns, ha⟩ := ha
  obtain ⟨os, hos, hb⟩ := hb
  refine ⟨ns ++ os, by rw [List.mapM_append, hns, hos]; rfl, fun p hp => ?_⟩
  rw [hfind p hp, ha p hp, hb p hp, List.filter_append]

end

mutual

theorem Term.exists_collects : (t : Term) → ∃ n, t.build = .ok n ∧ Collects n t.leaves
  | .leaf l => by
    obtain ⟨n, hn⟩ := l.exists_build
    exact ⟨n, hn, .of_leaf hn⟩
  | .trueLiteral => by
    have hleaf : Collects (Build.varchar "t") [.varchar "t"] := .of_leaf rfl
    exact ⟨_, rfl, hleaf.of_eq fun p hp => find_castNode hp _ _⟩
  | .falseLiteral => by
    have hleaf : Collects (Build.varchar "f") [.varchar "f"] := .of_leaf rfl
    exact ⟨_, rfl, hleaf.of_eq fun p hp => find_castNode hp _ _⟩
  | .cast child typeId => by
    obtain ⟨n, hn, h⟩ := exists_collects child
    exact ⟨Build.cast n typeId, by rw [build, hn]; rfl, h.of_eq fun p hp => find_castNode hp n _⟩
  | .castAs child type typed => by
    obtain ⟨n, hn, h⟩ := exists_collects child
    have hcast : Build.castAs n type = .ok (castNode n type.toTypeNode) := if_neg typed
    exact ⟨_, by rw [build, hn]; exact hcast, h.of_eq fun p hp => find_castNode hp n _⟩
  | .comparison op left right => by
    obtain ⟨a, ha, hleft⟩ := exists_collects left
    obtain ⟨b, hb, hright⟩ := exists_collects right
    exact ⟨Build.comparison op a b, by rw [build, ha, hb]; rfl,
      hleft.append hright fun p hp => find_comparison hp op a b⟩
  | .conjunction op children => by
    obtain ⟨ns, hns, h⟩ := exists_collectsAll children
    refine ⟨Build.conjunction op ns, by rw [build, hns]; rfl, h.of_eq fun p hp => ?_⟩
    rw [find_conjunction hp, hp.find_array]
  | .isNull child => by
    obtain ⟨n, hn, h⟩ := exists_collects child
    exact ⟨Build.isNull n, by rw [build, hn]; rfl, h.of_eq fun p hp => find_isNull hp n⟩
  | .ifThenElse condition result otherwise => by
    obtain ⟨a, ha, hcondition⟩ := exists_collects condition
    obtain ⟨b, hb, hresult⟩ := exists_collects result
    obtain ⟨c, hc, hotherwise⟩ := exists_collects otherwise
    have hcheck : Collects (caseCheck a b) (condition.leaves ++ result.leaves) :=
      hcondition.append hresult fun p hp => find_caseCheck hp a b
    refine ⟨Build.ifThenElse a b c, by rw [build, ha, hb, hc]; rfl,
      hcheck.append hotherwise fun p hp => ?_⟩
    rw [find_ifThenElse hp, find_caseCheck hp]
  | .function name schema catalog children => by
    obtain ⟨ns, hns, h⟩ := exists_collectsAll children
    refine ⟨Build.function name schema catalog ns, by rw [build, hns]; rfl,
      h.of_eq fun p hp => ?_⟩
    rw [find_function hp, hp.find_array]

theorem Term.exists_collectsAll : (ts : List Term) →
    ∃ ns, buildAll ts = .ok ns ∧ Collects (.array ns) (leavesOfAll ts)
  | [] => ⟨[], rfl, [], rfl, fun _ hp => hp.find_array []⟩
  | t :: ts => by
    obtain ⟨n, hn, hfirst⟩ := exists_collects t
    obtain ⟨ns, hns, hrest⟩ := exists_collectsAll ts
    refine ⟨n :: ns, by rw [buildAll, hn, hns]; rfl, hfirst.append hrest fun p hp => ?_⟩
    rw [hp.find_array, hp.find_array, List.flatMap_cons]

end

/-- The columns among leaves have the names that they are built from. -/
theorem mapM_columnNames {ls : List Leaf} {ns : List Node} (h : ls.mapM Leaf.build = .ok ns) :
    (ns.filter Node.isReference).mapM Node.columnNames = .ok (ls.filterMap Leaf.path?) := by
  rw [mapM_eq_ok_iff_forall₂] at h
  induction h with
  | nil => rfl
  | cons hl _ ih =>
    rcases Leaf.build_cases hl with ⟨path, hpath, hne, rfl⟩ | ⟨hpath, type, value, rfl, -, -⟩
    · rw [List.filter_cons_of_pos (by simp [Node.isReference, kind_reference]), List.mapM_cons,
        columnNames_of_ne_nil hne, ih, List.filterMap_cons_some hpath]
      rfl
    · rw [List.filter_cons_of_neg (by simp [Node.isReference, kind_valueConstant]), ih,
        List.filterMap_cons_none hpath]

/-- From an expression, however its calls are nested, exactly the columns and the constants are
collected that it is built from, in order, under their names, and no subqueries. -/
theorem Term.exists_build_leaves (t : Term) :
    ∃ n, t.build = .ok n ∧
      (t.leaves.filter Leaf.isColumn).mapM Leaf.build = .ok n.references ∧
      (t.leaves.filter fun l => !l.isColumn).mapM Leaf.build = .ok n.literals ∧
      n.subqueries = [] ∧
      n.references.mapM Node.columnNames = .ok (t.leaves.filterMap Leaf.path?) := by
  obtain ⟨n, hn, ns, hns, hfind⟩ := t.exists_collects
  have hreferences : n.references = ns.filter Node.isReference :=
    hfind _ Node.isLeafTest_isReference
  have hliterals : n.literals = ns.filter Node.isConstant := hfind _ Node.isLeafTest_isConstant
  have hsubqueries : n.subqueries = ns.filter Node.isSubquery :=
    hfind _ Node.isLeafTest_isSubquery
  refine ⟨n, hn, ?_, ?_, ?_, ?_⟩
  · rw [hreferences]
    exact mapM_filter_eq_ok (fun _ _ => Leaf.isReference_eq) hns
  · rw [hliterals]
    exact mapM_filter_eq_ok (fun _ _ => Leaf.isConstant_eq) hns
  · rw [hsubqueries, List.filter_eq_nil_iff]
    intro m hm
    obtain ⟨l, -, hl⟩ := exists_of_mem_of_mapM_eq_ok hns hm
    simp [Leaf.isSubquery_eq hl]
  · rw [hreferences]
    exact mapM_columnNames hns

end Build

end PartitionPruning
