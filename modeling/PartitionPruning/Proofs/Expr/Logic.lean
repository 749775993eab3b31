import PartitionPruning.Proofs.Expr.Build
import PartitionPruning.Proofs.Expr.Scale

/-! The logic of predicates has four truth values: true, false, null and unknown. The answer of a
conjunction combines the truth values of its operands by a commutative and associative operation,
and negation takes that of `AND` to that of `OR`. So neither the order nor the nesting of operands
matters, and a negation can be moved from a conjunction to its operands. -/

namespace PartitionPruning

inductive Truth where
  | definite (b : Bool)
  | null
  | unknown
  deriving DecidableEq

namespace Truth

/-- What an answer says of truth: a value that is no truth value says as little as no answer. -/
def ofAnswer : Answer Value → Truth
  | .known (.bool b) => definite b
  | .known .null => null
  | _ => unknown

def toAnswer : Truth → Answer Value
  | definite b => .known (.bool b)
  | null => .known .null
  | unknown => .unknown

def not : Truth → Truth
  | definite b => definite !b
  | t => t

@[simp] theorem ofAnswer_toAnswer (t : Truth) : ofAnswer t.toAnswer = t := by
  cases t <;> rfl

theorem toAnswer_ne_aborted (t : Truth) : t.toAnswer ≠ .aborted := by
  cases t <;> simp [toAnswer]

end Truth

/-! ### Combining truth values -/

namespace ConjunctionOp

/-- Two operands together: a dominant one decides, and of two others the less certain one counts. -/
def combine (op : ConjunctionOp) : Truth → Truth → Truth
  | .definite b, t => if b = op.dominant then .definite b else t
  | t, .definite b => if b = op.dominant then .definite b else t
  | .null, .null => .null
  | _, _ => .unknown

/-- All operands together. -/
def combineAll (op : ConjunctionOp) (ts : List Truth) : Truth :=
  ts.foldr op.combine (.definite !op.dominant)

/-- The other conjunction. -/
def dual : ConjunctionOp → ConjunctionOp
  | and => or
  | or => and

variable (op : ConjunctionOp)

instance : Std.Commutative op.combine where
  comm a b := by
    cases op <;> rcases a with (_ | _) | _ | _ <;> rcases b with (_ | _) | _ | _ <;> rfl

instance : Std.Associative op.combine where
  assoc a b c := by
    cases op <;> rcases a with (_ | _) | _ | _ <;> rcases b with (_ | _) | _ | _ <;>
      rcases c with (_ | _) | _ | _ <;> rfl

theorem combine_neutral (t : Truth) : op.combine (.definite !op.dominant) t = t := by
  simp [combine]

theorem not_combine (a b : Truth) : (op.combine a b).not = op.dual.combine a.not b.not := by
  cases op <;> rcases a with (_ | _) | _ | _ <;> rcases b with (_ | _) | _ | _ <;> rfl

theorem combineAll_perm {ts us : List Truth} (h : ts.Perm us) :
    op.combineAll ts = op.combineAll us :=
  h.foldr_eq' (fun _ _ _ _ _ => by ac_rfl) _

theorem combineAll_append (ts us : List Truth) :
    op.combineAll (ts ++ us) = op.combine (op.combineAll ts) (op.combineAll us) := by
  induction ts with
  | nil => exact (op.combine_neutral _).symm
  | cons t ts ih =>
    show op.combine t (op.combineAll (ts ++ us)) = op.combine (op.combine t (op.combineAll ts)) _
    rw [ih]
    ac_rfl

/-- Operands that have been combined count as one. -/
theorem combineAll_combineAll (ts us vs : List Truth) :
    op.combineAll (ts ++ op.combineAll us :: vs) = op.combineAll (ts ++ us ++ vs) := by
  rw [combineAll_append, combineAll_append, combineAll_append]
  exact (Std.Associative.assoc (op.combineAll ts) (op.combineAll us) (op.combineAll vs)).symm

theorem not_combineAll (ts : List Truth) :
    (op.combineAll ts).not = op.dual.combineAll (ts.map .not) := by
  induction ts with
  | nil => cases op <;> rfl
  | cons t ts ih =>
    show (op.combine t (op.combineAll ts)).not = _
    rw [not_combine, ih]
    rfl

/-- One more operand in front of an answer is combined with it. -/
theorem join_toAnswer {first : Answer Value} (h : first ≠ .aborted) (t : Truth) :
    op.join first t.toAnswer = (op.combine (.ofAnswer first) t).toAnswer := by
  cases first with
  | aborted => exact absurd rfl h
  | unknown =>
    cases t with
    | definite b =>
      simp only [Truth.toAnswer, join, Truth.ofAnswer, combine, undecided]
      split <;> rfl
    | _ => rfl
  | known v =>
    cases v with
    | bool b =>
      simp only [join, Truth.ofAnswer, combine]
      split <;> rfl
    | _ =>
      cases t with
      | definite b =>
        simp only [Truth.toAnswer, join, Truth.ofAnswer, combine, undecided]
        split <;> rfl
      | _ => rfl

end ConjunctionOp

/-! ### Nodes -/

namespace Node

def truth (row : Row) (n : Node) : Truth := .ofAnswer (n.eval row)

variable {row : Row} {n : Node} {t : Truth}

theorem truth_of_eval (h : n.eval row = t.toAnswer) : n.truth row = t := by
  rw [truth, h, Truth.ofAnswer_toAnswer]

theorem ne_aborted_of_eval (h : n.eval row = t.toAnswer) : n.eval row ≠ .aborted :=
  h ▸ t.toAnswer_ne_aborted

theorem evalAll_eq_combineAll (op : ConjunctionOp) {ns : List Node}
    (h : ∀ n ∈ ns, n.eval row ≠ .aborted) :
    evalAll row op ns = (op.combineAll (ns.map (truth row))).toAnswer := by
  induction ns with
  | nil => rfl
  | cons n ns ih =>
    obtain ⟨hn, hns⟩ := List.forall_mem_cons.mp h
    rw [evalAll, ih hns, op.join_toAnswer hn]
    rfl

end Node

namespace Build

/-- `NOT child` -/
def negation (child : Node) : Node :=
  expression "OPERATOR" "OPERATOR_NOT" [("children", .array [child])]

variable {row : Row} {child : Node} {xs ys zs : List Node}

theorem eval_negation : (negation child).eval row =
    (child.eval row).bind fun v => .ofOption (UnaryOp.not.result? v) := by
  have hclass : (negation child).hasClass "OPERATOR" = true := by simp [Node.hasClass, negation]
  rw [Node.eval_of_operator hclass]
  rfl

theorem eval_negation_eq (h : child.eval row ≠ .aborted) :
    (negation child).eval row = (child.truth row).not.toAnswer := by
  rw [eval_negation, Node.truth]
  cases hchild : child.eval row with
  | known v => cases v <;> rfl
  | unknown => rfl
  | aborted => exact absurd hchild h

/-- The answer of a conjunction follows from the truth values of its operands. -/
theorem eval_conjunction_eq (op : ConjunctionOp) (h : ∀ x ∈ xs, x.eval row ≠ .aborted) :
    (conjunction op xs).eval row = (op.combineAll (xs.map (Node.truth row))).toAnswer :=
  (eval_conjunction op xs).trans (Node.evalAll_eq_combineAll op h)

theorem eval_conjunction_perm (op : ConjunctionOp) (h : ∀ x ∈ xs, x.eval row ≠ .aborted)
    (hperm : xs.Perm ys) : (conjunction op xs).eval row = (conjunction op ys).eval row := by
  have hys : ∀ y ∈ ys, y.eval row ≠ .aborted := fun y hy => h y (hperm.mem_iff.mpr hy)
  rw [eval_conjunction_eq op h, eval_conjunction_eq op hys, op.combineAll_perm (hperm.map _)]

theorem eval_conjunction_nested (op : ConjunctionOp) (hxs : ∀ x ∈ xs, x.eval row ≠ .aborted)
    (hys : ∀ y ∈ ys, y.eval row ≠ .aborted) (hzs : ∀ z ∈ zs, z.eval row ≠ .aborted) :
    (conjunction op (xs ++ conjunction op ys :: zs)).eval row =
      (conjunction op (xs ++ ys ++ zs)).eval row := by
  have hinner := eval_conjunction_eq op hys
  have hnested : ∀ n ∈ xs ++ conjunction op ys :: zs, n.eval row ≠ .aborted :=
    List.forall_mem_append.mpr
      ⟨hxs, List.forall_mem_cons.mpr ⟨Node.ne_aborted_of_eval hinner, hzs⟩⟩
  have hflat : ∀ n ∈ xs ++ ys ++ zs, n.eval row ≠ .aborted :=
    List.forall_mem_append.mpr ⟨List.forall_mem_append.mpr ⟨hxs, hys⟩, hzs⟩
  rw [eval_conjunction_eq op hnested, eval_conjunction_eq op hflat, List.map_append,
    List.map_cons, Node.truth_of_eval hinner, op.combineAll_combineAll, List.map_append,
    List.map_append]

theorem eval_negation_conjunction (op : ConjunctionOp) (h : ∀ x ∈ xs, x.eval row ≠ .aborted) :
    (negation (conjunction op xs)).eval row = (conjunction op.dual (xs.map negation)).eval row := by
  have hconjunction := eval_conjunction_eq op h
  have hnegations : ∀ n ∈ xs.map negation, n.eval row ≠ .aborted :=
    List.forall_mem_map.mpr fun x hx => Node.ne_aborted_of_eval (eval_negation_eq (h x hx))
  have htruths : (xs.map negation).map (Node.truth row) = (xs.map (Node.truth row)).map .not := by
    rw [List.map_map, List.map_map]
    exact List.map_congr_left fun x hx => Node.truth_of_eval (eval_negation_eq (h x hx))
  rw [eval_negation_eq (Node.ne_aborted_of_eval hconjunction), Node.truth_of_eval hconjunction,
    eval_conjunction_eq op.dual hnegations, htruths, op.not_combineAll]

/-- Conjunctions and negation are one logic: the order and the nesting of operands do not matter,
and the negation of a conjunction is the other conjunction of the negations. -/
theorem eval_conjunction_laws (row : Row) (op : ConjunctionOp) {xs : List Node}
    (hxs : ∀ x ∈ xs, x.ScalesFit) :
    (∀ ys, xs.Perm ys → (conjunction op xs).eval row = (conjunction op ys).eval row) ∧
    (∀ ys zs, (∀ y ∈ ys, y.ScalesFit) → (∀ z ∈ zs, z.ScalesFit) →
      (conjunction op (xs ++ conjunction op ys :: zs)).eval row =
        (conjunction op (xs ++ ys ++ zs)).eval row) ∧
    (negation (conjunction .and xs)).eval row = (conjunction .or (xs.map negation)).eval row ∧
    (negation (conjunction .or xs)).eval row = (conjunction .and (xs.map negation)).eval row := by
  have hends {ns : List Node} (h : ∀ n ∈ ns, n.ScalesFit) : ∀ n ∈ ns, n.eval row ≠ .aborted :=
    fun n hn => (h n hn).eval_ne_aborted row
  refine ⟨?_, ?_, ?_, ?_⟩
  · intro ys hperm
    exact eval_conjunction_perm op (hends hxs) hperm
  · intro ys zs hys hzs
    exact eval_conjunction_nested op (hends hxs) (hends hys) (hends hzs)
  · exact eval_negation_conjunction .and (hends hxs)
  · exact eval_negation_conjunction .or (hends hxs)

/-- A missing column, a null, a text and a truth value. -/
def mixedOperands : List Node := [reference ["c"], nullConstant, varchar "x", trueLiteral]

theorem eval_conjunction_laws_mixed :
    (∀ x ∈ mixedOperands, x.ScalesFit) ∧
      (conjunction .or mixedOperands).eval [] = (conjunction .or mixedOperands.reverse).eval [] ∧
      (conjunction .or (mixedOperands ++ conjunction .or [] :: mixedOperands)).eval [] =
        (conjunction .or (mixedOperands ++ [] ++ mixedOperands)).eval [] ∧
      (negation (conjunction .and mixedOperands)).eval [] =
        (conjunction .or (mixedOperands.map negation)).eval [] ∧
      (negation (conjunction .or mixedOperands)).eval [] =
        (conjunction .and (mixedOperands.map negation)).eval [] := by
  have hfit : ∀ x ∈ mixedOperands, x.ScalesFit := by decide +kernel
  obtain ⟨hperm, hnested, hand, hor⟩ := eval_conjunction_laws [] .or hfit
  exact ⟨hfit, hperm _ (List.reverse_perm _).symm, hnested [] mixedOperands (by simp) hfit, hand,
    hor⟩

end Build

end PartitionPruning
