import PartitionPruning.Proofs.Expr.Evaluation
import PartitionPruning.Proofs.Failure

/-! When an evaluation is ended without an answer. The only constants without a value and without a
fault are those of decimal types with more places than decimals have, and an evaluation is ended
exactly if it comes to read one of them. Which constants it reads depends on the row, since the
operands of a conjunction and the arms of a case are taken in order until one settles the value. -/

namespace PartitionPruning

/-! ### Constants -/

theorem Decimal.exists_ofInt64? (n : Int64) {scale : Nat} (h : scale ≤ maxScale) :
    ∃ d, ofInt64? n scale = some d := by
  have hlow := n.le_toInt
  have hhigh := n.toInt_lt
  have hbound : coefficientBound = 2 ^ 96 := rfl
  rw [ofInt64?, of?, dif_pos ⟨by omega, h⟩]
  exact ⟨_, rfl⟩

theorem Decimal.ofInt64?_of_maxScale_lt (n : Int64) {scale : Nat} (h : maxScale < scale) :
    ofInt64? n scale = none :=
  dif_neg fun hfits => Nat.not_le_of_lt h hfits.2

/-- A constant that is not null, of a decimal type with more places than decimals have, with an
integer for its payload. -/
def Node.HasTooManyPlaces (constant : Node) : Prop :=
  ∃ payload type raw n width scale,
    constant.require "value" = .ok payload ∧
    (payload.field? "is_null").bind Node.bool? ≠ some true ∧
    payload.require "type" = .ok type ∧
    DataType.ofTypeNode type = .ok (.scalar (.decimal width scale)) ∧
    payload.require "value" = .ok raw ∧ raw.int64? = some n ∧ maxScale < scale.toNat

namespace Value

/-- Among all payloads only an integer with too many places has neither a value nor a fault. -/
theorem ofPayload_eq_abort_iff {raw : Node} {type : DataType} :
    ofPayload raw type = .error .abort ↔
      ∃ n width scale, type = .scalar (.decimal width scale) ∧ raw.int64? = some n ∧
        maxScale < scale.toNat := by
  constructor
  · intro h
    cases type with
    | scalar t =>
      cases t with
      | decimal width scale =>
        unfold ofPayload at h
        cases hn : raw.int64? with
        | none =>
          rw [hn] at h
          cases h
        | some n =>
          refine ⟨n, width, scale, rfl, rfl, Nat.lt_of_not_le fun hle => ?_⟩
          obtain ⟨d, hd⟩ := Decimal.exists_ofInt64? n hle
          rw [hn] at h
          dsimp only at h
          rw [hd] at h
          contradiction
      | _ =>
        unfold ofPayload at h
        dsimp only at h
        first | cases h | (split at h <;> cases h)
    | _ => cases h
  · rintro ⟨n, width, scale, rfl, hn, hscale⟩
    unfold ofPayload
    dsimp only
    rw [hn]
    dsimp only
    rw [Decimal.ofInt64?_of_maxScale_lt n hscale]

theorem ofConstant_eq_abort_iff {constant : Node} :
    ofConstant constant = .error .abort ↔ constant.HasTooManyPlaces := by
  constructor
  · intro h
    obtain ⟨payload, hpayload, h⟩ := Failure.lift_bind_eq_abort.mp h
    split at h
    · cases h
    rename_i hnull
    obtain ⟨type, htype, h⟩ := Failure.lift_bind_eq_abort.mp h
    obtain ⟨t, ht, h⟩ := Failure.lift_bind_eq_abort.mp h
    obtain ⟨raw, hraw, h⟩ := Failure.lift_bind_eq_abort.mp h
    obtain ⟨n, width, scale, rfl, hn, hscale⟩ := ofPayload_eq_abort_iff.mp h
    exact ⟨payload, type, raw, n, width, scale, hpayload, hnull, htype, ht, hraw, hn, hscale⟩
  · rintro ⟨payload, type, raw, n, width, scale, hpayload, hnull, htype, ht, hraw, hn, hscale⟩
    refine Failure.lift_bind_eq_abort.mpr ⟨payload, hpayload, ?_⟩
    rw [if_neg hnull]
    refine Failure.lift_bind_eq_abort.mpr ⟨type, htype, ?_⟩
    refine Failure.lift_bind_eq_abort.mpr ⟨_, ht, ?_⟩
    refine Failure.lift_bind_eq_abort.mpr ⟨raw, hraw, ?_⟩
    exact ofPayload_eq_abort_iff.mpr ⟨n, width, scale, rfl, hn, hscale⟩

end Value

/-! ### Answers -/

namespace Answer

theorem bind_eq_aborted {α β : Type} {a : Answer α} {f : α → Answer β} :
    a.bind f = .aborted ↔ a = .aborted ∨ ∃ v, a = .known v ∧ f v = .aborted := by
  cases a <;> simp [bind]

@[simp] theorem ofOption_ne_aborted {α : Type} (v : Option α) : ofOption v ≠ .aborted := by
  cases v <;> simp [ofOption]

theorem ofExcept_eq_aborted {α : Type} {r : Except Failure α} :
    ofExcept r = .aborted ↔ r = .error .abort := by
  unfold ofExcept
  split <;> simp

end Answer

namespace ConjunctionOp

theorem undecided_ne_aborted (a : Answer Value) : undecided a ≠ .aborted := by
  unfold undecided
  split <;> simp

/-- The rest of a conjunction ends it unless its first operand has decided it. -/
theorem join_eq_aborted {op : ConjunctionOp} {first rest : Answer Value} :
    op.join first rest = .aborted ↔
      first = .aborted ∨ first ≠ .known (.bool op.dominant) ∧ rest = .aborted := by
  unfold join
  split
  · simp
  · rename_i b
    split <;> simp [*]
  · rename_i hfirst hbool
    exact iff_of_true rfl (Or.inr ⟨hbool _, rfl⟩)
  · rename_i hfirst hbool
    refine iff_of_false ?_ (by simpa using hfirst)
    split
    · simp
    · exact undecided_ne_aborted first
  · rename_i hfirst hbool
    exact iff_of_false (undecided_ne_aborted first) (by simpa using hfirst)
  · rename_i hfirst hbool hrest _ _
    exact iff_of_false (by simp) (not_or.mpr ⟨hfirst, fun h => hrest h.2⟩)

end ConjunctionOp

/-! ### Evaluation -/

namespace Node

variable {row : Row} {n v c : Node} {key : String}

theorem evalField_eq_aborted :
    evalField row n key = .aborted ↔ ∃ v, n.field? key = some v ∧ v.eval row = .aborted := by
  unfold evalField
  split <;> simp_all

theorem evalAll_eq_aborted {op : ConjunctionOp} {ns : List Node} :
    evalAll row op ns = .aborted ↔ ∃ before n after, ns = before ++ n :: after ∧
      (∀ w ∈ before, w.eval row ≠ .known (.bool op.dominant)) ∧ n.eval row = .aborted := by
  induction ns with
  | nil => simp [evalAll]
  | cons n ns ih =>
    rw [evalAll, ConjunctionOp.join_eq_aborted, ih]
    constructor
    · rintro (hn | ⟨hn, before, m, after, rfl, hbefore, hm⟩)
      · exact ⟨[], n, ns, rfl, by simp, hn⟩
      · exact ⟨n :: before, m, after, rfl, List.forall_mem_cons.mpr ⟨hn, hbefore⟩, hm⟩
    · rintro ⟨_ | ⟨w, before⟩, m, after, heq, hbefore, hm⟩
      · obtain ⟨rfl, -⟩ := List.cons.inj heq
        exact Or.inl hm
      · obtain ⟨rfl, rfl⟩ := List.cons.inj heq
        obtain ⟨hw, hbefore⟩ := List.forall_mem_cons.mp hbefore
        exact Or.inr ⟨hw, before, m, after, rfl, hbefore, hm⟩

theorem evalAll_ne_aborted {op : ConjunctionOp} {ns : List Node}
    (h : ∀ n ∈ ns, n.eval row ≠ .aborted) : evalAll row op ns ≠ .aborted := by
  intro hended
  obtain ⟨before, n, after, rfl, -, hn⟩ := evalAll_eq_aborted.mp hended
  exact h n (by simp) hn

/-- The condition of an arm does not hold, so the case goes on to the next one. -/
def IsPassed (row : Row) (check : Node) : Prop :=
  evalField row check "when_expr" = .known (.bool false) ∨
    evalField row check "when_expr" = .known .null

/-- The condition of an arm is ended, or it is true and the result is. -/
def ArmAborts (row : Row) (check : Node) : Prop :=
  evalField row check "when_expr" = .aborted ∨
    evalField row check "when_expr" = .known (.bool true) ∧
      evalField row check "then_expr" = .aborted

theorem evalChecks_cons_eq_aborted {otherwise : Answer Value} {check : Node} {checks : List Node} :
    evalChecks row otherwise (check :: checks) = .aborted ↔
      check.ArmAborts row ∨ check.IsPassed row ∧ evalChecks row otherwise checks = .aborted := by
  rw [evalChecks, Answer.bind_eq_aborted, ArmAborts, IsPassed, or_assoc]
  refine or_congr_right ?_
  constructor
  · rintro ⟨v, hv, h⟩
    split at h <;> simp_all
  · rintro (⟨hv, h⟩ | ⟨hv | hv, h⟩)
    · exact ⟨_, hv, h⟩
    · exact ⟨_, hv, h⟩
    · exact ⟨_, hv, h⟩

theorem evalChecks_eq_aborted {otherwise : Answer Value} {checks : List Node} :
    evalChecks row otherwise checks = .aborted ↔
      (∃ before check after, checks = before ++ check :: after ∧
        (∀ w ∈ before, w.IsPassed row) ∧ check.ArmAborts row) ∨
      (∀ w ∈ checks, w.IsPassed row) ∧ otherwise = .aborted := by
  induction checks with
  | nil => simp [evalChecks]
  | cons check checks ih =>
    rw [evalChecks_cons_eq_aborted, ih]
    constructor
    · rintro (harm | ⟨hpassed, ⟨before, c, after, rfl, hbefore, hc⟩ | ⟨hall, ho⟩⟩)
      · exact Or.inl ⟨[], check, checks, rfl, by simp, harm⟩
      · exact Or.inl ⟨check :: before, c, after, rfl,
          List.forall_mem_cons.mpr ⟨hpassed, hbefore⟩, hc⟩
      · exact Or.inr ⟨List.forall_mem_cons.mpr ⟨hpassed, hall⟩, ho⟩
    · rintro (⟨_ | ⟨w, before⟩, c, after, heq, hbefore, hc⟩ | ⟨hall, ho⟩)
      · obtain ⟨rfl, -⟩ := List.cons.inj heq
        exact Or.inl hc
      · obtain ⟨rfl, rfl⟩ := List.cons.inj heq
        obtain ⟨hw, hbefore⟩ := List.forall_mem_cons.mp hbefore
        exact Or.inr ⟨hw, Or.inl ⟨before, c, after, rfl, hbefore, hc⟩⟩
      · obtain ⟨hpassed, hall⟩ := List.forall_mem_cons.mp hall
        exact Or.inr ⟨hpassed, Or.inr ⟨hall, ho⟩⟩

theorem evalElse_eq_aborted :
    evalElse row n = .aborted ↔
      ∃ v, n.present? "else_expr" = some v ∧ v.eval row = .aborted := by
  unfold evalElse
  split <;> simp_all

/-- The constants that the evaluation of a node reads on a row. It takes the right operand of a
comparison after a left one with a value, and the operands of a conjunction and the arms of a case
in order, until one of them settles the value. -/
inductive Reads (row : Row) : Node → Node → Prop where
  | constant {n : Node} (kind : n.kind = .constant) : Reads row n n
  | cast {n v c : Node} (kind : n.kind = .cast) (child : n.field? "child" = some v)
      (reads : Reads row v c) : Reads row n c
  | left {n v c : Node} {op : CompareOp} (kind : n.kind = .comparison op)
      (left : n.field? "left" = some v) (reads : Reads row v c) : Reads row n c
  | right {n v c : Node} {op : CompareOp} {a : Value} (kind : n.kind = .comparison op)
      (left : evalField row n "left" = .known a) (right : n.field? "right" = some v)
      (reads : Reads row v c) : Reads row n c
  | operand {n v c : Node} {op : ConjunctionOp} {before after : List Node}
      (kind : n.kind = .conjunction op) (children : n.itemsOf "children" = before ++ v :: after)
      (undecided : ∀ w ∈ before, w.eval row ≠ .known (.bool op.dominant))
      (reads : Reads row v c) : Reads row n c
  | unary {n v c : Node} (operator : n.hasClass "OPERATOR" = true)
      (children : n.itemsOf "children" = [v]) (reads : Reads row v c) : Reads row n c
  | condition {n check v c : Node} {before after : List Node} (kind : n.kind = .case)
      (checks : n.itemsOf? "case_checks" = some (before ++ check :: after))
      (passed : ∀ w ∈ before, w.IsPassed row) (condition : check.field? "when_expr" = some v)
      (reads : Reads row v c) : Reads row n c
  | result {n check v c : Node} {before after : List Node} (kind : n.kind = .case)
      (checks : n.itemsOf? "case_checks" = some (before ++ check :: after))
      (passed : ∀ w ∈ before, w.IsPassed row)
      (applies : evalField row check "when_expr" = .known (.bool true))
      (result : check.field? "then_expr" = some v) (reads : Reads row v c) : Reads row n c
  | otherwise {n v c : Node} {arms : List Node} (kind : n.kind = .case)
      (checks : n.itemsOf? "case_checks" = some arms) (passed : ∀ w ∈ arms, w.IsPassed row)
      (otherwise : n.present? "else_expr" = some v) (reads : Reads row v c) : Reads row n c

theorem Reads.mem_parts (h : Reads row n c) : c ∈ n.parts := by
  induction h with
  | constant _ => exact self_mem_parts _
  | cast _ hv _ ih | left _ hv _ ih | right _ _ hv _ ih => exact mem_parts_of_field? hv ih
  | operand _ hitems _ _ ih | unary _ hitems _ ih =>
    exact @mem_parts_of_mem_itemsOf _ _ _ "children" (by simp [hitems]) ih
  | condition _ hchecks _ hv _ ih | result _ hchecks _ _ hv _ ih =>
    exact mem_parts_of_mem_itemsOf? hchecks (by simp) (mem_parts_of_field? hv ih)
  | otherwise _ _ _ hv _ ih => exact mem_parts_of_present? hv ih

/-- A constant with too many places ends every evaluation that reads it. -/
theorem Reads.eval_eq_aborted (h : Reads row n c) (hc : c.HasTooManyPlaces) :
    n.eval row = .aborted := by
  induction h with
  | constant hk =>
    rw [eval_of_constant hk]
    exact Answer.ofExcept_eq_aborted.mpr (Value.ofConstant_eq_abort_iff.mpr hc)
  | cast hk hv _ ih =>
    rw [eval_of_cast hk, evalField_eq_aborted.mpr ⟨_, hv, ih hc⟩]
    rfl
  | left hk hv _ ih =>
    rw [eval_of_comparison hk, evalField_eq_aborted.mpr ⟨_, hv, ih hc⟩]
    rfl
  | right hk hleft hv _ ih =>
    rw [eval_of_comparison hk, hleft, evalField_eq_aborted.mpr ⟨_, hv, ih hc⟩]
    rfl
  | operand hk hitems hbefore _ ih =>
    rw [eval_of_conjunction hk]
    exact evalAll_eq_aborted.mpr ⟨_, _, _, hitems, hbefore, ih hc⟩
  | unary hop hitems _ ih =>
    rw [eval_of_operator hop, hitems]
    dsimp only
    rw [ih hc]
    rfl
  | condition hk hchecks hbefore hv _ ih =>
    rw [eval_of_case hk, hchecks]
    have harm := evalField_eq_aborted.mpr ⟨_, hv, ih hc⟩
    exact evalChecks_eq_aborted.mpr (Or.inl ⟨_, _, _, rfl, hbefore, Or.inl harm⟩)
  | result hk hchecks hbefore hcondition hv _ ih =>
    rw [eval_of_case hk, hchecks]
    have harm := evalField_eq_aborted.mpr ⟨_, hv, ih hc⟩
    exact evalChecks_eq_aborted.mpr (Or.inl ⟨_, _, _, rfl, hbefore, Or.inr ⟨hcondition, harm⟩⟩)
  | otherwise hk hchecks hpassed hv _ ih =>
    rw [eval_of_case hk, hchecks]
    exact evalChecks_eq_aborted.mpr
      (Or.inr ⟨hpassed, evalElse_eq_aborted.mpr ⟨_, hv, ih hc⟩⟩)

/-- An evaluation that is ended has read a constant with too many places. -/
theorem exists_reads_of_eval_eq_aborted {n : Node} (h : n.eval row = .aborted) :
    ∃ c, n.Reads row c ∧ c.HasTooManyPlaces := by
  -- The arms of a case are read through fields of other nodes than `n`, so `m` is one of them too.
  have hfield {m : Node} (hm : sizeOf m ≤ sizeOf n) {key : String}
      (hended : evalField row m key = .aborted) :
      ∃ v c, m.field? key = some v ∧ v.Reads row c ∧ c.HasTooManyPlaces := by
    obtain ⟨v, hv, habort⟩ := evalField_eq_aborted.mp hended
    obtain ⟨c, hreads, hc⟩ := exists_reads_of_eval_eq_aborted habort
    exact ⟨v, c, hv, hreads, hc⟩
  by_cases ho : n.isOpaque = true
  · rw [eval_of_isOpaque ho] at h
    contradiction
  by_cases hop : n.hasClass "OPERATOR" = true
  · rw [eval_of_operator hop] at h
    split at h
    · rename_i v hitems
      have hv : v ∈ n.itemsOf "children" := by simp [hitems]
      have hended := (Answer.bind_eq_aborted.mp h).resolve_right (by simp)
      obtain ⟨c, hreads, hc⟩ := exists_reads_of_eval_eq_aborted hended
      exact ⟨c, .unary hop hitems hreads, hc⟩
    · contradiction
  cases hk : n.kind with
  | constant =>
    rw [eval_of_constant hk] at h
    exact ⟨n, .constant hk, Value.ofConstant_eq_abort_iff.mp (Answer.ofExcept_eq_aborted.mp h)⟩
  | columnRef =>
    rw [eval_of_columnRef hk] at h
    split at h
    · exact absurd h (Answer.ofOption_ne_aborted _)
    · contradiction
  | cast =>
    rw [eval_of_cast hk] at h
    have hended := (Answer.bind_eq_aborted.mp h).resolve_right (by simp)
    obtain ⟨v, c, hv, hreads, hc⟩ := hfield (Nat.le_refl _) hended
    exact ⟨c, .cast hk hv hreads, hc⟩
  | comparison op =>
    rw [eval_of_comparison hk] at h
    rcases Answer.bind_eq_aborted.mp h with hended | ⟨a, ha, h⟩
    · obtain ⟨v, c, hv, hreads, hc⟩ := hfield (Nat.le_refl _) hended
      exact ⟨c, .left hk hv hreads, hc⟩
    · have hended := (Answer.bind_eq_aborted.mp h).resolve_right (by simp)
      obtain ⟨v, c, hv, hreads, hc⟩ := hfield (Nat.le_refl _) hended
      exact ⟨c, .right hk ha hv hreads, hc⟩
  | conjunction op =>
    rw [eval_of_conjunction hk] at h
    obtain ⟨before, v, after, hitems, hbefore, hended⟩ := evalAll_eq_aborted.mp h
    have hv : v ∈ n.itemsOf "children" := by simp [hitems]
    obtain ⟨c, hreads, hc⟩ := exists_reads_of_eval_eq_aborted hended
    exact ⟨c, .operand hk hitems hbefore hreads, hc⟩
  | case =>
    rw [eval_of_case hk] at h
    split at h
    · contradiction
    rename_i checks hchecks
    have hsmaller {check : Node} (hcheck : check ∈ checks) : sizeOf check ≤ sizeOf n :=
      Nat.le_of_lt (sizeOf_lt_of_mem_itemsOf? hchecks hcheck)
    rcases evalChecks_eq_aborted.mp h with ⟨before, check, after, rfl, hbefore, harm⟩ | ⟨hpassed, h⟩
    · rcases harm with hended | ⟨htrue, hended⟩
      · obtain ⟨v, c, hv, hreads, hc⟩ := hfield (hsmaller (by simp)) hended
        exact ⟨c, .condition hk hchecks hbefore hv hreads, hc⟩
      · obtain ⟨v, c, hv, hreads, hc⟩ := hfield (hsmaller (by simp)) hended
        exact ⟨c, .result hk hchecks hbefore htrue hv hreads, hc⟩
    · obtain ⟨v, hv, hended⟩ := evalElse_eq_aborted.mp h
      obtain ⟨c, hreads, hc⟩ := exists_reads_of_eval_eq_aborted hended
      exact ⟨c, .otherwise hk hchecks hpassed hv hreads, hc⟩
  | function | subquery | select | other => simp [isOpaque, hk, hop] at ho
termination_by sizeOf n
decreasing_by
  · exact Nat.lt_of_lt_of_le (sizeOf_lt_of_field? hv) hm
  · exact sizeOf_lt_of_mem_itemsOf hv
  · exact sizeOf_lt_of_mem_itemsOf hv
  · exact sizeOf_lt_of_present? hv

theorem eval_eq_aborted_iff :
    n.eval row = .aborted ↔ ∃ c ∈ n.parts, n.Reads row c ∧ c.HasTooManyPlaces := by
  constructor
  · intro h
    obtain ⟨c, hreads, hc⟩ := exists_reads_of_eval_eq_aborted h
    exact ⟨c, hreads.mem_parts, hreads, hc⟩
  · rintro ⟨c, -, hreads, hc⟩
    exact hreads.eval_eq_aborted hc

end Node

end PartitionPruning
