import PartitionPruning.Expr.Column
import PartitionPruning.Proofs.Expr.Evaluation
import PartitionPruning.Proofs.Tree.Fields
import PartitionPruning.Proofs.Tree.Search

/-! The columns that evaluation looks up are those that a search for references finds. Evaluation
and search go down a tree by different fields, and meet the same references only in the layout in
which the front end writes nodes. -/

namespace PartitionPruning

namespace Node

variable {n v r : Node} {key : String}

theorem mem_references_of_searchChildren (hn : n.isReference = false) (hv : v ∈ n.searchChildren)
    (hr : r ∈ v.references) : r ∈ n.references := by
  rw [references, find_of_false hn]
  exact List.mem_flatMap_of_mem hv hr

/-! ### Layout -/

/-- The names of an object's fields. -/
def fieldNames (n : Node) : List String := Fields.keys (n.fields?.getD [])

theorem field?_eq_none_of_fieldNames (h : key ∉ n.fieldNames) : n.field? key = none := by
  cases n with
  | object fs =>
    rw [fieldNames, fields?, Option.getD_some] at h
    exact Option.not_isSome_iff_eq_none.mp (mt Fields.isSome_get?_iff.mp h)
  | _ => rfl

/-- An arm has its condition and its result, and nothing else. -/
def IsArm (n : Node) : Prop := n.fieldNames.Perm ["when_expr", "then_expr"]

instance (n : Node) : Decidable n.IsArm := inferInstanceAs (Decidable (List.Perm _ _))

theorem IsArm.field?_eq_none (h : n.IsArm) (hkey : key ∉ ["when_expr", "then_expr"]) :
    n.field? key = none :=
  field?_eq_none_of_fieldNames (mt h.mem_iff.mp hkey)

theorem IsArm.isReference_eq_false (h : n.IsArm) : n.isReference = false := by
  have htype : n.type? = none := by rw [type?, h.field?_eq_none (by decide), Option.bind_none]
  simp [isReference, kind, htype]

theorem IsArm.mem_searchChildren (h : n.IsArm) (hv : n.field? key = some v) :
    v ∈ n.searchChildren :=
  mem_searchChildren_of_field? (h.field?_eq_none (by decide)) (h.field?_eq_none (by decide))
    (Or.inl (h.field?_eq_none (by decide))) hv

/-- The fields of a node of this kind are those that the search and evaluation both go by: besides
them it has none that the search prefers, and a case is made of arms. -/
def IsLaidOutAs (n : Node) : Kind → Prop
  | .comparison _ => n.field? "children" = none ∧ n.field? "child" = none
  | .cast => n.field? "children" = none
  | .case => n.field? "children" = none ∧ n.field? "child" = none ∧
      (n.field? "left" = none ∨ n.field? "right" = none) ∧
      ∀ check ∈ n.itemsOf "case_checks", check.IsArm
  | _ => True

instance (n : Node) : (k : Kind) → Decidable (n.IsLaidOutAs k)
  | .comparison _ => inferInstanceAs (Decidable (_ ∧ _))
  | .cast => inferInstanceAs (Decidable (_ = _))
  | .case => inferInstanceAs (Decidable (_ ∧ _))
  | .constant | .columnRef | .conjunction _ | .function | .subquery | .select | .other =>
    inferInstanceAs (Decidable True)

def IsLaidOut (n : Node) : Prop := n.IsLaidOutAs n.kind

instance (n : Node) : Decidable n.IsLaidOut := inferInstanceAs (Decidable (n.IsLaidOutAs _))

/-! ### Evaluation -/

variable {a b : Row}

theorem evalField_congr (h : ∀ v, n.field? key = some v → v.eval a = v.eval b) :
    evalField a n key = evalField b n key := by
  unfold evalField
  cases hv : n.field? key with
  | none => rfl
  | some v => exact h v hv

theorem evalAll_congr {op : ConjunctionOp} {ns : List Node} (h : ∀ n ∈ ns, n.eval a = n.eval b) :
    evalAll a op ns = evalAll b op ns := by
  induction ns with
  | nil => rfl
  | cons n ns ih =>
    rw [evalAll, evalAll, h n List.mem_cons_self, ih fun m hm => h m (List.mem_cons_of_mem _ hm)]

theorem evalChecks_congr {checks : List Node} {otherwise otherwise' : Answer Value}
    (ho : otherwise = otherwise')
    (h : ∀ check ∈ checks, ∀ key, evalField a check key = evalField b check key) :
    evalChecks a otherwise checks = evalChecks b otherwise' checks := by
  induction checks with
  | nil => exact ho
  | cons check checks ih =>
    rw [evalChecks, evalChecks, h check List.mem_cons_self, h check List.mem_cons_self,
      ih fun c hc => h c (List.mem_cons_of_mem _ hc)]

theorem evalElse_congr (h : ∀ v, n.present? "else_expr" = some v → v.eval a = v.eval b) :
    evalElse a n = evalElse b n := by
  unfold evalElse
  cases hv : n.present? "else_expr" with
  | none => rfl
  | some v => exact h v hv

/-- The rows hold the same in all columns that the tree refers to by one name. -/
def AgreeOn (n : Node) (a b : Row) : Prop :=
  ∀ r ∈ n.references, ∀ name, r.columnNames = .ok [name] → Fields.get? a name = Fields.get? b name

theorem AgreeOn.of_mem (h : n.AgreeOn a b) (hn : n.isReference = false)
    (hv : v ∈ n.searchChildren) : v.AgreeOn a b :=
  fun r hr => h r (mem_references_of_searchChildren hn hv hr)

/-- A tree in layout has the same value, or none, on all rows that agree on its references. -/
theorem eval_congr {n : Node} (hlayout : ∀ t ∈ n.parts, t.IsLaidOut) (h : n.AgreeOn a b) :
    n.eval a = n.eval b := by
  have hself : n.IsLaidOutAs n.kind := hlayout n n.self_mem_parts
  -- A field of a node that agrees has one value on both rows if the search goes on to it.
  have hfield {m : Node} (hm : ∀ t ∈ m.parts, t ∈ n.parts) (hsize : sizeOf m ≤ sizeOf n)
      (hagree : m.AgreeOn a b) (href : m.isReference = false) {key : String}
      (hsearch : ∀ v, m.field? key = some v → v ∈ m.searchChildren) :
      evalField a m key = evalField b m key :=
    evalField_congr fun v hv => eval_congr
      (fun t ht => hlayout t (hm t (mem_parts_of_field? hv ht)))
      (hagree.of_mem href (hsearch v hv))
  have hoperand (href : n.isReference = false) {v : Node} (hv : v ∈ n.itemsOf "children") :
      v.eval a = v.eval b :=
    eval_congr (fun t ht => hlayout t (mem_parts_of_mem_itemsOf hv ht))
      (h.of_mem href (mem_searchChildren_of_itemsOf hv))
  by_cases ho : n.isOpaque = true
  · rw [eval_of_isOpaque ho, eval_of_isOpaque ho]
  by_cases hop : n.hasClass "OPERATOR" = true
  · have href : n.isReference = false := by simp [isReference, kind_of_operator hop]
    rw [eval_of_operator hop, eval_of_operator hop]
    split
    · rename_i operand hc
      rw [hoperand href (by simp [hc])]
    · rfl
  cases hk : n.kind with
  | constant => rw [eval_of_constant hk, eval_of_constant hk]
  | columnRef =>
    have hfound : n.references = [n] := find_of_true (by simp [isReference, hk])
    rw [eval_of_columnRef hk, eval_of_columnRef hk]
    split
    · rw [h n (by simp [hfound]) _ ‹_›]
    · rfl
  | comparison op =>
    have href : n.isReference = false := by simp [isReference, hk]
    rw [hk] at hself
    rw [eval_of_comparison hk, eval_of_comparison hk,
      hfield (fun _ => id) (Nat.le_refl _) h href fun _ =>
        mem_searchChildren_of_operand hself.1 hself.2 (Or.inl rfl),
      hfield (fun _ => id) (Nat.le_refl _) h href fun _ =>
        mem_searchChildren_of_operand hself.1 hself.2 (Or.inr rfl)]
  | conjunction op =>
    have href : n.isReference = false := by simp [isReference, hk]
    rw [eval_of_conjunction hk, eval_of_conjunction hk, evalAll_congr fun v => hoperand href]
  | cast =>
    have href : n.isReference = false := by simp [isReference, hk]
    rw [hk] at hself
    rw [eval_of_cast hk, eval_of_cast hk,
      hfield (fun _ => id) (Nat.le_refl _) h href fun _ => mem_searchChildren_of_child hself]
  | case =>
    have href : n.isReference = false := by simp [isReference, hk]
    rw [hk] at hself
    obtain ⟨hchildren, hchild, hpair, harms⟩ := hself
    rw [eval_of_case hk, eval_of_case hk]
    split
    · rfl
    · rename_i checks hchecks
      obtain ⟨array, hfound, hitems⟩ := Option.bind_eq_some_iff.mp hchecks
      obtain rfl := items?_eq_some hitems
      have hsearch {key : String} {v : Node} (hv : n.field? key = some v) : v.AgreeOn a b :=
        h.of_mem href (mem_searchChildren_of_field? hchildren hchild hpair hv)
      refine evalChecks_congr (evalElse_congr fun v hv => ?_) fun check hcheck key => ?_
      · exact eval_congr (fun t ht => hlayout t (mem_parts_of_present? hv ht))
          (hsearch (field?_of_present? hv))
      · have harm : check.IsArm := harms check (by simpa [itemsOf, hchecks] using hcheck)
        have hagree : check.AgreeOn a b := (hsearch hfound).of_mem rfl hcheck
        exact hfield (fun t ht => mem_parts_of_mem_itemsOf? hchecks hcheck ht)
          (Nat.le_of_lt (sizeOf_lt_of_mem_itemsOf? hchecks hcheck)) hagree
          harm.isReference_eq_false fun _ => harm.mem_searchChildren
  | function | subquery | select | other => simp [isOpaque, hk, hop] at ho
termination_by sizeOf n
decreasing_by
  · exact Nat.lt_of_lt_of_le (sizeOf_lt_of_field? hv) hsize
  · exact sizeOf_lt_of_mem_itemsOf hv
  · exact sizeOf_lt_of_present? hv

end Node

end PartitionPruning
