import PartitionPruning.Delta.Predicate
import PartitionPruning.Proofs.DataType.Serialized
import PartitionPruning.Proofs.Expr.Build
import PartitionPruning.Proofs.Expr.Extension
import PartitionPruning.Proofs.Expr.Truth
import PartitionPruning.Proofs.Failure

/-! The predicate of an expression agrees with the expression wherever both have an answer. The two
go different ways on nulls, on texts that stand for values of other kinds and on columns that are
missing; none of them makes the one true and the other false. -/

namespace PartitionPruning

theorem Node.field?_of_requireWithin {n : Node} {key : String}
    {v : { v : Node // sizeOf v < sizeOf n }} (h : n.requireWithin key = .ok v) :
    n.field? key = some v.val :=
  field?_of_require (require_of_requireWithin h)

/-- Values that have an order are compared as they are. -/
theorem Value.coerceLike_of_compare {a b : Value} {o : Ordering} (h : a.compare b = some o) :
    a.coerceLike b = some a ∧ b.coerceLike a = some b := by
  cases a <;> cases b <;> simp_all [compare, coerceLike, toDouble?]

namespace DeltaPredicate

variable {row full : Row} {op : ConjunctionOp}

/-! ### Values of predicates -/

theorem value?_of_holds? {p : DeltaPredicate} {b : Bool} (h : p.holds? row = some b) :
    p.value? row = some (.bool b) := by
  cases p with
  | column name =>
    simp only [holds?] at h
    split at h <;> simp_all [value?]
  | literal v => cases v <;> simp_all [holds?, value?]
  | comparison op left right =>
    rw [holds?] at h
    rw [value?, h]
    rfl
  | not operand =>
    rw [holds?] at h
    obtain ⟨c, hc, rfl⟩ := Option.map_eq_some_iff.mp h
    rw [value?, hc]
    rfl
  | and left right =>
    rw [holds?] at h
    rw [value?, h]
    rfl
  | or left right =>
    rw [holds?] at h
    rw [value?, h]
    rfl

theorem value?_ofConjunctionOp (p q : DeltaPredicate) :
    (ofConjunctionOp op p q).value? row = ((ofConjunctionOp op p q).holds? row).map .bool := by
  cases op <;> rw [ofConjunctionOp, value?, holds?]

theorem holds?_ofConjunctionOp_dominant {p q : DeltaPredicate} :
    (ofConjunctionOp op p q).holds? row = some op.dominant ↔
      p.holds? row = some op.dominant ∨ q.holds? row = some op.dominant := by
  cases op <;> rw [ofConjunctionOp, holds?, ConjunctionOp.dominant]
  · rcases p.holds? row with _ | _ | _ <;> rcases q.holds? row with _ | _ | _ <;> simp [both]
  · rcases p.holds? row with _ | _ | _ <;> rcases q.holds? row with _ | _ | _ <;> simp [either]

theorem holds?_ofConjunctionOp_neutral {p q : DeltaPredicate} :
    (ofConjunctionOp op p q).holds? row = some (!op.dominant) ↔
      p.holds? row = some (!op.dominant) ∧ q.holds? row = some (!op.dominant) := by
  cases op <;> rw [ofConjunctionOp, holds?, ConjunctionOp.dominant]
  · rcases p.holds? row with _ | _ | _ <;> rcases q.holds? row with _ | _ | _ <;> simp [both]
  · rcases p.holds? row with _ | _ | _ <;> rcases q.holds? row with _ | _ | _ <;> simp [either]

theorem holds?_foldl_dominant {p : DeltaPredicate} {ps : List DeltaPredicate} :
    (ps.foldl (ofConjunctionOp op) p).holds? row = some op.dominant ↔
      ∃ q ∈ p :: ps, q.holds? row = some op.dominant := by
  induction ps generalizing p with
  | nil => simp
  | cons q ps ih =>
    rw [List.foldl_cons, ih]
    simp only [List.mem_cons, exists_eq_or_imp, holds?_ofConjunctionOp_dominant, or_assoc]

theorem holds?_foldl_neutral {p : DeltaPredicate} {ps : List DeltaPredicate} :
    (ps.foldl (ofConjunctionOp op) p).holds? row = some (!op.dominant) ↔
      ∀ q ∈ p :: ps, q.holds? row = some (!op.dominant) := by
  induction ps generalizing p with
  | nil => simp
  | cons q ps ih =>
    rw [List.foldl_cons, ih]
    simp only [List.forall_mem_cons, holds?_ofConjunctionOp_neutral, and_assoc]

/-- With a second operand, a folded conjunction has no values but truth values. -/
theorem value?_foldl {p : DeltaPredicate} {ps : List DeltaPredicate}
    (h : p.value? row = (p.holds? row).map .bool) :
    (ps.foldl (ofConjunctionOp op) p).value? row =
      ((ps.foldl (ofConjunctionOp op) p).holds? row).map .bool := by
  induction ps generalizing p with
  | nil => exact h
  | cons q ps ih => exact ih (value?_ofConjunctionOp p q)

/-- An inequality has the value of the negated equality. -/
theorem value?_ofComparison {op : CompareOp} {p q : DeltaPredicate} {a b w : Value} {o : Ordering}
    (ha : p.value? row = some a) (hb : q.value? row = some b) (hnull : ¬(a.isNull ∨ b.isNull))
    (ho : a.compare b = some o) (h : (ofComparison op p q).value? row = some w) :
    w = .bool (op.holds o) := by
  have hcompare (op : CompareOp) : compare? op a b = some (op.holds o) := by
    rw [compare?, if_neg hnull, ho]
    rfl
  cases op with
  | notEqual =>
    simp only [ofComparison, value?, holds?, ha, hb, hcompare, Option.bind_some,
      Option.map_some, Option.some.injEq] at h
    rw [← h]
    cases o <;> rfl
  | equal | lessThan | greaterThan | lessOrEqual | greaterOrEqual =>
    simp only [ofComparison, value?, ha, hb, hcompare, Option.bind_some, Option.map_some,
      Option.some.injEq] at h
    exact h.symm

theorem exists_of_value?_ofComparison {op : CompareOp} {p q : DeltaPredicate} {w : Value}
    (h : (ofComparison op p q).value? row = some w) :
    ∃ a b, p.value? row = some a ∧ q.value? row = some b ∧
      (¬(a.isNull ∨ b.isNull) → ∃ o, a.compare b = some o) := by
  have hoperands (op : CompareOp) {c : Bool} (hc : ((p.value? row).bind fun a =>
      (q.value? row).bind fun b => compare? op a b) = some c) :
      ∃ a b, p.value? row = some a ∧ q.value? row = some b ∧
        (¬(a.isNull ∨ b.isNull) → ∃ o, a.compare b = some o) := by
    obtain ⟨a, ha, hc⟩ := Option.bind_eq_some_iff.mp hc
    obtain ⟨b, hb, hc⟩ := Option.bind_eq_some_iff.mp hc
    refine ⟨a, b, ha, hb, fun hnull => ?_⟩
    rw [compare?, if_neg hnull] at hc
    obtain ⟨o, ho, -⟩ := Option.map_eq_some_iff.mp hc
    exact ⟨o, ho⟩
  cases op with
  | notEqual =>
    simp only [ofComparison, value?, holds?] at h
    obtain ⟨c, hc, -⟩ := Option.map_eq_some_iff.mp h
    exact hoperands _ hc
  | equal | lessThan | greaterThan | lessOrEqual | greaterOrEqual =>
    simp only [ofComparison, value?] at h
    obtain ⟨c, hc, -⟩ := Option.map_eq_some_iff.mp h
    exact hoperands _ hc

/-! ### Predicates of expressions -/

/-- A cast that can be folded has the folded value on every row. -/
theorem eval_of_castValue {n : Node} (hk : n.kind = .cast) {v : Value} (h : castValue n = .ok v) :
    n.eval row = .known v := by
  rw [castValue] at h
  obtain ⟨⟨child, hlt⟩, hchild, h⟩ := bind_eq_ok.mp h
  rw [Failure.lift_eq_ok] at hchild
  obtain ⟨w, hw, h⟩ : ∃ w, child.eval row = .known w ∧
      (liftM (n.require "cast_type") >>= fun type => liftM (DataType.ofTypeNode type) >>= fun t =>
        liftM (w.cast t) : Except Failure Value) = .ok v := by
    dsimp only at h
    split at h
    · obtain ⟨w, hw, h⟩ := bind_eq_ok.mp h
      refine ⟨w, ?_, h⟩
      rw [Node.eval_of_constant ‹_›, hw]
      rfl
    · obtain ⟨w, hw, h⟩ := bind_eq_ok.mp h
      exact ⟨w, eval_of_castValue ‹_› hw, h⟩
    · contradiction
  obtain ⟨type, htype, h⟩ := bind_eq_ok.mp h
  obtain ⟨t, ht, h⟩ := bind_eq_ok.mp h
  rw [Failure.lift_eq_ok] at htype ht h
  rw [Node.eval_of_cast hk, Node.evalField,
    Node.field?_of_requireWithin hchild, Expr.castTarget,
    Node.field?_of_require htype]
  simp only [Option.bind_some, hw, ht]
  show Answer.ofOption (w.cast t).toOption = _
  rw [h]
  rfl
termination_by sizeOf n
decreasing_by exact hlt

theorem ofNode_of_conjunction {n : Node} (hk : n.kind = .conjunction op) :
    ofNode n = ofOperands op <$> (n.itemsOf "children").mapM ofNode := by
  rw [ofNode]
  simp only [hk]
  rw [List.mapM_subtype (g := ofNode) fun _ _ => rfl, List.unattach_attach]

theorem exists_of_ofNode_comparison {n : Node} {op : CompareOp} {p : DeltaPredicate}
    (hk : n.kind = .comparison op) (h : ofNode n = .ok p) :
    ∃ left right pl pr, n.field? "left" = some left ∧ n.field? "right" = some right ∧
      ofNode left = .ok pl ∧ ofNode right = .ok pr ∧ p = ofComparison op pl pr := by
  rw [ofNode] at h
  simp only [hk] at h
  obtain ⟨⟨left, _⟩, hleft, h⟩ := bind_eq_ok.mp h
  obtain ⟨pl, hpl, h⟩ := bind_eq_ok.mp h
  obtain ⟨⟨right, _⟩, hright, h⟩ := bind_eq_ok.mp h
  obtain ⟨pr, hpr, h⟩ := bind_eq_ok.mp h
  rw [Failure.lift_eq_ok] at hleft hright
  exact ⟨left, right, pl, pr, Node.field?_of_requireWithin hleft,
    Node.field?_of_requireWithin hright, hpl, hpr, (Except.ok.inj h).symm⟩

/-! ### Agreement -/

/-- A conjunction of predicates has the dominant value if one operand has it; any other value is
that of all operands. -/
theorem value?_ofOperands {ps : List DeltaPredicate} {w : Value}
    (h : (ofOperands op ps).value? row = some w) :
    (w = .bool op.dominant ∧ ∃ p ∈ ps, p.value? row = some w) ∨
      ((ps = [] → w = .bool !op.dominant) ∧ ∀ p ∈ ps, p.value? row = some w) := by
  match ps, h with
  | [], h =>
    rw [ofOperands, value?, Option.some.injEq] at h
    exact Or.inr ⟨fun _ => h.symm, by simp⟩
  | [p], h => exact Or.inr ⟨by simp, by simpa [ofOperands] using h⟩
  | p :: q :: ps, h =>
    rw [ofOperands, List.foldl_cons, value?_foldl (value?_ofConjunctionOp p q)] at h
    obtain ⟨b, hb, rfl⟩ := Option.map_eq_some_iff.mp h
    rw [← List.foldl_cons (f := ofConjunctionOp op)] at hb
    by_cases hdominant : b = op.dominant
    · subst hdominant
      obtain ⟨r, hr, hholds⟩ := holds?_foldl_dominant.mp hb
      exact Or.inl ⟨rfl, r, hr, value?_of_holds? hholds⟩
    · obtain rfl : b = !op.dominant := Bool.eq_not_of_ne hdominant
      exact Or.inr ⟨by simp, fun r hr => value?_of_holds? (holds?_foldl_neutral.mp hb r hr)⟩

/-- A conjunction of predicates agrees with that of their expressions if they do one by one. -/
theorem eq_of_value?_ofOperands {ns : List Node} {ps : List DeltaPredicate} {v w : Value}
    (hps : ns.mapM ofNode = .ok ps)
    (hagree : ∀ n ∈ ns, ∀ p, ofNode n = .ok p → n.eval full = .known v →
      p.value? row = some w → w = v)
    (hv : Node.evalAll full op ns = .known v) (hnull : v ≠ .null)
    (hw : (ofOperands op ps).value? row = some w) : w = v := by
  rcases Node.evalAll_eq_known hv with ⟨hdominant, n, hn, hvalue⟩ | ⟨hneutral, hall⟩ | ⟨hn, -⟩
  · rcases value?_ofOperands hw with ⟨hw, -⟩ | ⟨-, hsame⟩
    · rw [hw, hdominant]
    · obtain ⟨p, hp, hof⟩ := exists_of_mapM_eq_ok hps hn
      exact hagree n hn p hof hvalue (hsame p hp)
  · rcases value?_ofOperands hw with ⟨-, p, hp, hsame⟩ | ⟨hempty, hsame⟩
    · obtain ⟨n, hn, hof⟩ := exists_of_mem_of_mapM_eq_ok hps hp
      exact hagree n hn p hof (hall n hn) hsame
    · cases ps with
      | nil => rw [hempty rfl, hneutral]
      | cons p ps =>
        obtain ⟨n, hn, hof⟩ := exists_of_mem_of_mapM_eq_ok hps List.mem_cons_self
        exact hagree n hn p hof (hall n hn) (hsame p List.mem_cons_self)
  · exact absurd hn hnull

/-- Where a predicate has a value on a row and its expression has one on a larger row, they are the
same, unless that of the expression is null. -/
theorem value?_agrees {n : Node} {p : DeltaPredicate} (h : ofNode n = .ok p)
    (hfull : full.Extends row) {v w : Value} (hv : n.eval full = .known v) (hnull : v ≠ .null)
    (hw : p.value? row = some w) : w = v := by
  cases hk : n.kind with
  | constant =>
    rw [ofNode] at h
    simp only [hk] at h
    obtain ⟨u, hu, rfl⟩ := map_eq_ok.mp h
    rw [Node.eval_of_constant hk, hu] at hv
    obtain rfl : u = v := Answer.known.inj hv
    rw [value?] at hw
    exact (Option.some.inj hw).symm
  | columnRef =>
    rw [ofNode] at h
    simp only [hk] at h
    obtain ⟨name, hname, rfl⟩ := map_eq_ok.mp h
    obtain ⟨names, hnames, rfl⟩ := map_eq_ok.mp (Failure.lift_eq_ok.mp hname)
    rw [Node.eval_of_columnRef hk, hnames] at hv
    split at hv
    · rename_i name heq
      obtain rfl := Except.ok.inj heq
      rw [value?] at hw
      have hlarge := hfull _ _ hw
      rw [joinWith] at hlarge
      rw [hlarge] at hv
      exact Answer.known.inj hv
    · contradiction
  | cast =>
    rw [ofNode] at h
    simp only [hk] at h
    obtain ⟨u, hu, rfl⟩ := map_eq_ok.mp h
    rw [eval_of_castValue hk hu] at hv
    rw [value?] at hw
    exact (Option.some.inj hw).symm.trans (Answer.known.inj hv)
  | comparison op =>
    obtain ⟨left, right, pl, pr, hleft, hright, hpl, hpr, rfl⟩ := exists_of_ofNode_comparison hk h
    rw [Node.eval_of_comparison hk, Node.evalField, Node.evalField, hleft, hright] at hv
    obtain ⟨a, ha, hv⟩ := Answer.bind_eq_known.mp hv
    obtain ⟨b, hb, hv⟩ := Answer.bind_eq_known.mp hv
    rcases CompareOp.result?_eq_some (Answer.ofOption_eq_known.mp hv) with
      ⟨-, hv⟩ | ⟨hnulls, x, y, o, hx, hy, ho, rfl⟩
    · exact absurd hv hnull
    obtain ⟨c, d, hc, hd, hcompare⟩ := exists_of_value?_ofComparison hw
    -- Operands with an order are not null, so the predicates of both have their values.
    have hne : a ≠ .null ∧ b ≠ .null :=
      ⟨fun h => hnulls (Or.inl (h ▸ rfl)), fun h => hnulls (Or.inr (h ▸ rfl))⟩
    obtain rfl := value?_agrees hpl hfull ha hne.1 hc
    obtain rfl := value?_agrees hpr hfull hb hne.2 hd
    obtain ⟨o', ho'⟩ := hcompare hnulls
    obtain ⟨hleft', hright'⟩ := Value.coerceLike_of_compare ho'
    obtain rfl := Option.some.inj (hleft'.symm.trans hx)
    obtain rfl := Option.some.inj (hright'.symm.trans hy)
    exact value?_ofComparison hc hd hnulls ho hw
  | conjunction op =>
    rw [ofNode_of_conjunction hk] at h
    obtain ⟨ps, hps, rfl⟩ := map_eq_ok.mp h
    rw [Node.eval_of_conjunction hk] at hv
    exact eq_of_value?_ofOperands hps
      (fun c hc q hq hv hw => value?_agrees hq hfull hv hnull hw) hv hnull hw
  | case | function | subquery | select | other =>
    rw [ofNode] at h
    simp only [hk] at h
    contradiction
termination_by sizeOf n
decreasing_by
  · exact Node.sizeOf_lt_of_field? hright
  · exact Node.sizeOf_lt_of_field? hleft
  · exact Node.sizeOf_lt_of_mem_itemsOf hc

/-- Where the predicate of an expression is definite on a row and the expression is so on a larger
row, they are the same. So no row that extends one on which the predicate is false satisfies the
expression. -/
theorem holds?_agrees {n : Node} {p : DeltaPredicate} (h : ofNode n = .ok p) {row full : Row}
    (hfull : full.Extends row) :
    (∀ b b', n.eval full = .known (.bool b) → p.holds? row = some b' → b = b') ∧
      (p.holds? row = some false → n.satisfied full ≠ .known true) := by
  have hagree (b b' : Bool) (hb : n.eval full = .known (.bool b)) (hb' : p.holds? row = some b') :
      b = b' :=
    (Value.bool.inj (value?_agrees h hfull hb (by simp) (value?_of_holds? hb'))).symm
  refine ⟨hagree, fun hfalse htrue => ?_⟩
  exact absurd (hagree true false (Node.satisfied_eq_true.mp htrue) hfalse) (by simp)

/-- `p <> 'x' AND c = 'y'` -/
def otherTextFilter : Node :=
  Build.conjunction .and
    [Build.comparison .notEqual (Build.reference ["p"]) (Build.varchar "x"),
     Build.comparison .equal (Build.reference ["c"]) (Build.varchar "y")]

/-- With `x` for `p` the predicate is false, and the filter is not true with `y` for `c`. -/
theorem holds?_agrees_otherText :
    ∃ p, ofNode otherTextFilter = .ok p ∧
      Row.Extends [("p", .string "x"), ("c", .string "y")] [("p", .string "x")] ∧
      p.holds? [("p", .string "x")] = some false ∧
      otherTextFilter.satisfied [("p", .string "x"), ("c", .string "y")] ≠ .known true := by
  obtain ⟨p, hp, hholds⟩ : ∃ p, ofNode otherTextFilter = .ok p ∧
      p.holds? [("p", .string "x")] = some false := by
    have hsome : (ofNode otherTextFilter).toOption.bind (holds? [("p", .string "x")]) =
        some false := by decide +kernel
    obtain ⟨p, hp, hholds⟩ := Option.bind_eq_some_iff.mp hsome
    refine ⟨p, ?_, hholds⟩
    cases h : ofNode otherTextFilter <;> simp_all [Except.toOption]
  have hfull : Row.Extends [("p", .string "x"), ("c", .string "y")] [("p", .string "x")] :=
    Row.extends_append [("p", .string "x")] [("c", .string "y")]
  exact ⟨p, hp, hfull, hholds, (holds?_agrees hp hfull).2 hholds⟩

end DeltaPredicate

end PartitionPruning
