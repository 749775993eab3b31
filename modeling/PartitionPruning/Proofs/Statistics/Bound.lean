import PartitionPruning.Proofs.Expr.Build
import PartitionPruning.Proofs.Expr.Truth
import PartitionPruning.Proofs.Value.Cast
import PartitionPruning.Statistics.Bound

/-! Bounds hold of the rows that satisfy their comparison, and the predicates on least and greatest
values let pass every file with such a row. -/

namespace PartitionPruning

/-! ### Comparisons of values of one type -/

namespace CompareOp

theorem holds_swap (op : CompareOp) (o : Ordering) : op.swap.holds o.swap = op.holds o := by
  cases op <;> cases o <;> rfl

/-- A comparison written the other way round has the same result. -/
theorem result?_swap (op : CompareOp) (a b : Value) : op.swap.result? b a = op.result? a b := by
  unfold result?
  by_cases hnull : a.isNull = true ∨ b.isNull = true
  · rw [if_pos hnull, if_pos (Or.symm hnull)]
  · rw [if_neg hnull, if_neg fun h => hnull (Or.symm h)]
    cases a.coerceLike b with
    | none => cases b.coerceLike a <;> rfl
    | some x =>
      cases b.coerceLike a with
      | none => rfl
      | some y =>
        show (do let o ← y.compare x; _) = do let o ← x.compare y; _
        rw [Value.compare_swap]
        cases x.compare y with
        | none => rfl
        | some o => exact congrArg (fun b => some (Value.bool b)) (holds_swap op o)

theorem result?_of_isOf {op : CompareOp} {type : DataType} {a b : Value} {o : Ordering}
    (ha : a.isOf type = true) (hb : b.isOf type = true) (h : a.compare b = some o) :
    op.result? a b = some (.bool (op.holds o)) := by
  have hnull : ¬(a.isNull = true ∨ b.isNull = true) := by
    rintro (hn | hn)
    · cases a <;> simp [Value.isNull] at hn
      contradiction
    · cases b <;> simp [Value.isNull] at hn
      contradiction
  rw [result?, if_neg hnull, Value.coerceLike_of_isOf ha (Or.inl hb),
    Value.coerceLike_of_isOf hb (Or.inl ha)]
  simp only [Option.bind_eq_bind, Option.bind_some, h]

theorem result?_lessOrEqual {type : DataType} {a b : Value} (ha : a.isOf type = true)
    (hb : b.isOf type = true) (h : a.Le b) :
    result? .lessOrEqual a b = some (.bool true) := by
  obtain ⟨o, ho, hle⟩ := h
  rw [result?_of_isOf ha hb ho, holds, hle]

theorem result?_greaterOrEqual {type : DataType} {a b : Value} (ha : a.isOf type = true)
    (hb : b.isOf type = true) (h : b.Le a) :
    result? .greaterOrEqual a b = some (.bool true) := by
  obtain ⟨o, ho, hle⟩ := h
  rw [result?_of_isOf ha hb (Value.compare_of_swap ho), holds, Ordering.isGE_swap, hle]

end CompareOp

theorem Node.isReference_eq_false_of_isConstant {n : Node} (h : n.isConstant = true) :
    n.isReference = false := by
  have hkind : n.kind = .constant := by simpa [isConstant] using h
  simp [isReference, hkind]

namespace Bound

/-! ### What a bound says -/

/-- A comparison that bounds a value from above is true only of a value that comes no later. -/
theorem le_of_isUpper {op : CompareOp} {a b : Value} {o : Ordering} (h : a.compare b = some o)
    (ho : op.holds o = true) (hop : (ofOp op).isUpper = true) : a.Le b := by
  refine ⟨o, h, ?_⟩
  cases op <;> cases o <;> simp_all [ofOp, isUpper, CompareOp.holds]

theorem le_of_isLower {op : CompareOp} {a b : Value} {o : Ordering} (h : a.compare b = some o)
    (ho : op.holds o = true) (hop : (ofOp op).isLower = true) : b.Le a := by
  refine ⟨o.swap, Value.compare_of_swap h, ?_⟩
  cases op <;> cases o <;> simp_all [ofOp, isLower, CompareOp.holds]

/-- The operands of a comparison that is a bound: the column and the constant, or the other way
round. -/
theorem exists_of_ofComparison {n : Node} (h : ofComparison n ≠ .neither) :
    ∃ op left right, n.kind = .comparison op ∧ n.field? "left" = some left ∧
      n.field? "right" = some right ∧
      (left.isReference = true ∧ right.isConstant = true ∨
        left.isConstant = true ∧ right.isReference = true) := by
  unfold ofComparison at h
  split at h
  · rename_i op left right hk hl hr
    refine ⟨op, left, right, hk, hl, hr, ?_⟩
    split at h
    · rename_i hside
      exact Or.inl (Bool.and_eq_true_iff.mp hside)
    · split at h
      · rename_i hside
        exact Or.inr (Bool.and_eq_true_iff.mp hside)
      · exact absurd rfl h
  · exact absurd rfl h

/-! ### Searching a comparison -/

section

variable {n left right : Node}

theorem searchChildren_of_operands (hl : n.field? "left" = some left)
    (hr : n.field? "right" = some right) (hchildren : n.field? "children" = none)
    (hchild : n.field? "child" = none) : n.searchChildren = [left, right] := by
  cases n <;> simp_all [Node.field?, Node.searchChildren]

/-- A comparison without other fields to search than its operands has the references and constants
of its operands. -/
theorem find_of_operands {p : Node → Bool} (hp : p n = false) (hl : n.field? "left" = some left)
    (hr : n.field? "right" = some right) (hchildren : n.field? "children" = none)
    (hchild : n.field? "child" = none) : n.find p = left.find p ++ right.find p := by
  rw [Node.find_of_false hp, searchChildren_of_operands hl hr hchildren hchild]
  simp

/-- The only reference and the only constant of a bound are its operands. -/
theorem operands_of_bound {reference literal : Node} (hbound : ofComparison n ≠ .neither)
    (hchildren : n.field? "children" = none) (hchild : n.field? "child" = none)
    (href : n.references = [reference]) (hlit : n.literals = [literal]) :
    ∃ op, n.kind = .comparison op ∧ reference.isReference = true ∧ literal.isConstant = true ∧
      (n.field? "left" = some reference ∧ n.field? "right" = some literal ∨
        n.field? "left" = some literal ∧ n.field? "right" = some reference) := by
  obtain ⟨op, left, right, hk, hl, hr, hsides⟩ := exists_of_ofComparison hbound
  have hfind {p : Node → Bool} (hp : p n = false) : n.find p = left.find p ++ right.find p :=
    find_of_operands hp hl hr hchildren hchild
  rw [Node.references, hfind (by simp [Node.isReference, hk])] at href
  rw [Node.literals, hfind (by simp [Node.isConstant, hk])] at hlit
  have hhead {p : Node → Bool} {t : Node} (hp : p left = true)
      (h : left.find p ++ right.find p = [t]) : t = left := by
    rw [Node.find_of_true hp] at h
    exact (List.cons.inj h).1.symm
  have hlast {p : Node → Bool} {t : Node} (hp : p right = true)
      (h : left.find p ++ right.find p = [t]) : t = right := by
    have hmem : right ∈ [t] := by
      rw [← h, Node.find_of_true hp]
      exact List.mem_append_right _ List.mem_cons_self
    exact (List.mem_singleton.mp hmem).symm
  rcases hsides with ⟨hrefl, hconr⟩ | ⟨hconl, hrefr⟩
  · obtain rfl := hhead hrefl href
    obtain rfl := hlast hconr hlit
    exact ⟨op, hk, hrefl, hconr, Or.inl ⟨hl, hr⟩⟩
  · obtain rfl := hlast hrefr href
    obtain rfl := hhead hconl hlit
    exact ⟨op, hk, hrefr, hconl, Or.inr ⟨hl, hr⟩⟩

/-- The one reference is the column itself, so there is none in the constant. -/
theorem references_literal_of_bound {reference literal : Node} (hbound : ofComparison n ≠ .neither)
    (hchildren : n.field? "children" = none) (hchild : n.field? "child" = none)
    (href : n.references = [reference]) (hlit : n.literals = [literal]) :
    literal.references = [] := by
  obtain ⟨op, hk, hisref, -, hsides⟩ := operands_of_bound hbound hchildren hchild href hlit
  have hself : reference.references = [reference] := Node.find_of_true hisref
  have hp : n.isReference = false := by simp [Node.isReference, hk]
  rcases hsides with ⟨hl, hr⟩ | ⟨hl, hr⟩
  · have hfind : n.references = reference.references ++ literal.references :=
      find_of_operands hp hl hr hchildren hchild
    rw [href, hself] at hfind
    exact List.self_eq_append_right.mp hfind
  · have hfind : n.references = literal.references ++ reference.references :=
      find_of_operands hp hl hr hchildren hchild
    rw [href, hself] at hfind
    exact List.self_eq_append_left.mp hfind

/-- Whichever operand is the column, the comparison is one with the column on the left: by its
operator, or by the swapped one. -/
theorem exists_eval_of_operands {reference literal : Node} {op : CompareOp}
    (hk : n.kind = .comparison op) (hisref : reference.isReference = true)
    (hiscon : literal.isConstant = true)
    (hsides : n.field? "left" = some reference ∧ n.field? "right" = some literal ∨
      n.field? "left" = some literal ∧ n.field? "right" = some reference) :
    ∃ op', (op' = op ∨ op' = op.swap) ∧ ofComparison n = ofOp op' ∧
      ∀ (row : Row) (v : Value), reference.eval row = .known v →
        n.eval row = (literal.eval row).bind fun l => .ofOption (op'.result? v l) := by
  rcases hsides with ⟨hleft, hright⟩ | ⟨hleft, hright⟩
  · refine ⟨op, Or.inl rfl, ?_, ?_⟩
    · rw [ofComparison, hk, hleft, hright]
      simp [hisref, hiscon]
    · intro row v hv
      rw [Node.eval_of_comparison hk, Node.evalField, Node.evalField, hleft, hright]
      dsimp only
      rw [hv]
      rfl
  · refine ⟨op.swap, Or.inr rfl, ?_, ?_⟩
    · rw [ofComparison, hk, hleft, hright]
      simp [hisref, hiscon, Node.isReference_eq_false_of_isConstant hiscon]
    · intro row v hv
      rw [Node.eval_of_comparison hk, Node.evalField, Node.evalField, hleft, hright]
      dsimp only
      rw [hv]
      simp only [CompareOp.result?_swap]
      rfl

end

/-! ### Predicates on extremes -/

/-- The answer keeps a file. -/
def Passes (a : Answer Value) : Prop := a = .known (.bool true) ∨ a = .unknown

theorem Passes.bind {α : Type} {a : Option α} {f : α → Answer Value}
    (h : ∀ x, a = some x → Passes (f x)) : Passes ((Answer.ofOption a).bind f) := by
  cases a with
  | none => exact Or.inr rfl
  | some x => exact h x rfl

theorem Passes.ofOption {a : Option Value} (h : ∀ v, a = some v → v = .bool true) :
    Passes (.ofOption a) := by
  cases a with
  | none => exact Or.inr rfl
  | some v => exact Or.inl (by rw [h v rfl]; rfl)

variable {stats : Row} {op : CompareOp} {extreme : String} {literal : Node} {type : DataType}
  {l : Value}

theorem exists_scalar {v : Value} (h : v.isOf type = true) : ∃ t, type = .scalar t ∧ t ≠ .null := by
  revert h
  unfold Value.isOf
  split <;> simp

/-- The predicate on an extreme is true of a null, and it compares any other one with the constant,
both as values of the type. -/
theorem exists_eval_guarded (op : CompareOp) (extreme : String) {t : ScalarType} (ht : t ≠ .null)
    (hliteral : literal.eval stats = .known l) :
    ∃ p, guarded op extreme literal (.scalar t) = .ok p ∧
      p.eval stats = (Answer.ofOption (Fields.get? stats extreme)).bind fun e =>
        if e.isNull then .known (.bool true)
        else (Answer.ofOption (e.cast (.scalar t)).toOption).bind fun v =>
          (Answer.ofOption (l.cast (.scalar t)).toOption).bind fun w =>
            .ofOption (op.result? v w) := by
  have hne : DataType.scalar t ≠ .untyped := fun h => ht (DataType.scalar.inj h)
  have hcast (child : Node) : Build.castAs child (.scalar t) =
      .ok (Build.castNode child (DataType.scalar t).toTypeNode) := by
    rw [Build.castAs, if_neg hne]
  refine ⟨_, by rw [guarded, hcast, ok_bind, hcast, ok_bind]; rfl, ?_⟩
  rw [Build.eval_ifThenElse _ _ _ (by simp [Build.comparison, Build.expression]),
    Build.eval_isNull, Build.eval_reference, Build.eval_comparison, Build.eval_castNode,
    Build.eval_castNode, Build.eval_reference, hliteral, DataType.ofTypeNode_scalar,
    Build.eval_trueLiteral]
  cases Fields.get? stats extreme with
  | none => rfl
  | some e => cases e <;> rfl

/-- Of any other extreme the predicate is the comparison of what the two are cast to. -/
theorem exists_guarded_of_cast {t : ScalarType} {e v w r : Value} (ht : t ≠ .null)
    (hextreme : Fields.get? stats extreme = some e) (he : e.isNull = false)
    (hliteral : literal.eval stats = .known l) (hv : (e.cast (.scalar t)).toOption = some v)
    (hw : (l.cast (.scalar t)).toOption = some w) (hr : op.result? v w = some r) :
    ∃ p, guarded op extreme literal (.scalar t) = .ok p ∧ p.eval stats = .known r := by
  obtain ⟨p, hp, heval⟩ := exists_eval_guarded op extreme ht hliteral
  refine ⟨p, hp, ?_⟩
  rw [heval, hextreme]
  simp [Answer.ofOption, Answer.bind, he, hv, hw, hr]

theorem guarded_eq_ok {p : Node} (h : guarded op extreme literal type = .ok p) :
    p = Build.ifThenElse (Build.isNull (Build.reference [extreme])) Build.trueLiteral
      (Build.comparison op (Build.castNode (Build.reference [extreme]) type.toTypeNode)
        (Build.castNode literal type.toTypeNode)) := by
  obtain ⟨left, hleft, h⟩ := bind_eq_ok.mp h
  obtain ⟨right, hright, h⟩ := bind_eq_ok.mp h
  rw [← Except.ok.inj h, Build.castAs_eq_ok hleft, Build.castAs_eq_ok hright]

/-- Of a null the predicate is true, whatever the type and the constant are. -/
theorem eval_guarded_of_null {p : Node} (h : guarded op extreme literal type = .ok p)
    (hnull : Fields.get? stats extreme = some .null) : p.eval stats = .known (.bool true) := by
  rw [guarded_eq_ok h, Build.eval_ifThenElse _ _ _ (by simp [Build.comparison, Build.expression]),
    Build.eval_isNull, Build.eval_reference, hnull]
  exact Build.eval_trueLiteral

/-- The predicate on an extreme passes if the comparison with the constant is true of it, both as
values of the type. -/
theorem exists_guarded {v : Value} (hv : v.isOf type = true)
    (hliteral : literal.eval stats = .known l)
    (hextreme : ∀ e, Fields.get? stats extreme = some e → e = .null ∨
      ∀ v w, (e.cast type).toOption = some v → (l.cast type).toOption = some w →
        op.result? v w = some (.bool true)) :
    ∃ p, guarded op extreme literal type = .ok p ∧ Passes (p.eval stats) := by
  obtain ⟨t, rfl, ht⟩ := exists_scalar hv
  obtain ⟨p, hp, heval⟩ := exists_eval_guarded op extreme ht hliteral
  refine ⟨p, hp, heval ▸ Passes.bind fun e he => ?_⟩
  -- The comparison is made only of an extreme that is not null.
  cases hnull : e.isNull with
  | true => exact Or.inl rfl
  | false =>
    refine Passes.bind fun v hv => Passes.bind fun w hw => Passes.ofOption fun u hu => ?_
    rcases hextreme e he with rfl | hresult
    · contradiction
    · rw [hresult v w hv hw, Option.some.injEq] at hu
      exact hu.symm

end Bound

end PartitionPruning
