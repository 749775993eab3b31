import PartitionPruning.Proofs.Delta.Agreement
import PartitionPruning.Proofs.Expr.Abort

/-! When the making of a predicate is ended without a result. It takes the parts of an expression in
order up to the first that has no predicate, whatever their values, and is ended exactly if it
comes to read a constant with more places than decimals have. -/

namespace PartitionPruning

namespace DeltaPredicate

variable {n c : Node}

theorem ofNode_of_constant (hk : n.kind = .constant) :
    ofNode n = literal <$> Value.ofConstant n := by
  rw [ofNode]
  simp only [hk]

theorem ofNode_of_cast (hk : n.kind = .cast) : ofNode n = literal <$> castValue n := by
  rw [ofNode]
  simp only [hk]

/-- Only the operand of a cast can end it: the type and the conversion have faults at most. -/
theorem castValue_eq_abort_iff :
    castValue n = .error .abort ↔ ∃ v, n.require "child" = .ok v ∧
      (v.kind = .constant ∨ v.kind = .cast) ∧ ofNode v = .error .abort := by
  have hrest (w : Value) : (liftM (n.require "cast_type") >>= fun type =>
      liftM (DataType.ofTypeNode type) >>= fun t => liftM (w.cast t) :
        Except Failure Value) ≠ .error .abort := by
    intro h
    obtain ⟨type, -, h⟩ := Failure.lift_bind_eq_abort.mp h
    obtain ⟨t, -, h⟩ := Failure.lift_bind_eq_abort.mp h
    exact Failure.lift_ne_abort h
  rw [castValue, Failure.lift_bind_eq_abort]
  constructor
  · rintro ⟨⟨v, hsize⟩, hv, h⟩
    refine ⟨v, Node.require_of_requireWithin hv, ?_⟩
    dsimp only at h
    split at h
    · rename_i hk
      have hended := (bind_eq_error.mp h).resolve_right fun ⟨w, _, hw⟩ => hrest w hw
      exact ⟨Or.inl hk, by rw [ofNode_of_constant hk, map_eq_error, hended]⟩
    · rename_i hk
      have hended := (bind_eq_error.mp h).resolve_right fun ⟨w, _, hw⟩ => hrest w hw
      exact ⟨Or.inr hk, by rw [ofNode_of_cast hk, map_eq_error, hended]⟩
    · cases h
  · rintro ⟨v, hv, hkind, hended⟩
    refine ⟨_, Node.requireWithin_of_require hv, ?_⟩
    rcases hkind with hk | hk
    · rw [ofNode_of_constant hk, map_eq_error] at hended
      simp only [hk]
      exact bind_eq_error.mpr (Or.inl hended)
    · rw [ofNode_of_cast hk, map_eq_error] at hended
      simp only [hk]
      exact bind_eq_error.mpr (Or.inl hended)

theorem ofNode_comparison_eq_abort_iff {op : CompareOp} (hk : n.kind = .comparison op) :
    ofNode n = .error .abort ↔
      ∃ l, n.require "left" = .ok l ∧ (ofNode l = .error .abort ∨
        ∃ p r, ofNode l = .ok p ∧ n.require "right" = .ok r ∧ ofNode r = .error .abort) := by
  rw [ofNode]
  simp only [hk]
  rw [Failure.lift_bind_eq_abort]
  constructor
  · rintro ⟨⟨l, _⟩, hl, h⟩
    refine ⟨l, Node.require_of_requireWithin hl, ?_⟩
    rcases bind_eq_error.mp h with hended | ⟨p, hp, h⟩
    · exact Or.inl hended
    · obtain ⟨⟨r, _⟩, hr, h⟩ := Failure.lift_bind_eq_abort.mp h
      have hended := (bind_eq_error.mp h).resolve_right (by simp [pure, Except.pure])
      exact Or.inr ⟨p, r, hp, Node.require_of_requireWithin hr, hended⟩
  · rintro ⟨l, hl, h⟩
    refine ⟨_, Node.requireWithin_of_require hl, ?_⟩
    rcases h with hended | ⟨p, r, hp, hr, hended⟩
    · exact bind_eq_error.mpr (Or.inl hended)
    · refine bind_eq_error.mpr (Or.inr ⟨p, hp, ?_⟩)
      refine Failure.lift_bind_eq_abort.mpr ⟨_, Node.requireWithin_of_require hr, ?_⟩
      exact bind_eq_error.mpr (Or.inl hended)

/-- The constants that the making of a predicate reads: those below the parts that it comes to. -/
inductive Reads : Node → Node → Prop where
  | constant {n : Node} (kind : n.kind = .constant) : Reads n n
  | cast {n v c : Node} (kind : n.kind = .cast) (child : n.require "child" = .ok v)
      (foldable : v.kind = .constant ∨ v.kind = .cast) (reads : Reads v c) : Reads n c
  | left {n l c : Node} {op : CompareOp} (kind : n.kind = .comparison op)
      (left : n.require "left" = .ok l) (reads : Reads l c) : Reads n c
  | right {n l r c : Node} {op : CompareOp} {p : DeltaPredicate} (kind : n.kind = .comparison op)
      (left : n.require "left" = .ok l) (made : ofNode l = .ok p)
      (right : n.require "right" = .ok r) (reads : Reads r c) : Reads n c
  | operand {n v c : Node} {op : ConjunctionOp} {before after : List Node}
      (kind : n.kind = .conjunction op) (children : n.itemsOf "children" = before ++ v :: after)
      (made : ∀ w ∈ before, ∃ p, ofNode w = .ok p) (reads : Reads v c) : Reads n c

theorem Reads.mem_parts (h : Reads n c) : c ∈ n.parts := by
  induction h with
  | constant _ => exact Node.self_mem_parts _
  | cast _ hv _ _ ih | left _ hv _ ih | right _ _ _ hv _ ih => exact Node.mem_parts_of_require hv ih
  | operand _ hitems _ _ ih =>
    exact @Node.mem_parts_of_mem_itemsOf _ _ _ "children" (by simp [hitems]) ih

/-- A constant with too many places ends the making of every predicate that reads it. -/
theorem Reads.ofNode_eq_abort (h : Reads n c) (hc : c.HasTooManyPlaces) :
    ofNode n = .error .abort := by
  induction h with
  | constant hk =>
    rw [ofNode_of_constant hk, map_eq_error]
    exact Value.ofConstant_eq_abort_iff.mpr hc
  | cast hk hv hfoldable _ ih =>
    rw [ofNode_of_cast hk, map_eq_error]
    exact castValue_eq_abort_iff.mpr ⟨_, hv, hfoldable, ih hc⟩
  | left hk hl _ ih => exact (ofNode_comparison_eq_abort_iff hk).mpr ⟨_, hl, Or.inl (ih hc)⟩
  | right hk hl hp hr _ ih =>
    exact (ofNode_comparison_eq_abort_iff hk).mpr ⟨_, hl, Or.inr ⟨_, _, hp, hr, ih hc⟩⟩
  | operand hk hitems hmade _ ih =>
    rw [ofNode_of_conjunction hk, map_eq_error]
    exact mapM_eq_error.mpr ⟨_, _, _, hitems, hmade, ih hc⟩

/-- The making of a predicate that is ended has read a constant with too many places. -/
theorem exists_reads_of_ofNode_eq_abort {n : Node} (h : ofNode n = .error .abort) :
    ∃ c, Reads n c ∧ c.HasTooManyPlaces := by
  cases hk : n.kind with
  | constant =>
    rw [ofNode_of_constant hk, map_eq_error] at h
    exact ⟨n, .constant hk, Value.ofConstant_eq_abort_iff.mp h⟩
  | columnRef =>
    rw [ofNode] at h
    simp only [hk] at h
    exact absurd (map_eq_error.mp h) Failure.lift_ne_abort
  | cast =>
    rw [ofNode_of_cast hk, map_eq_error] at h
    obtain ⟨v, hv, hfoldable, hended⟩ := castValue_eq_abort_iff.mp h
    obtain ⟨c, hreads, hc⟩ := exists_reads_of_ofNode_eq_abort hended
    exact ⟨c, .cast hk hv hfoldable hreads, hc⟩
  | comparison op =>
    obtain ⟨l, hl, hended | ⟨p, r, hp, hr, hended⟩⟩ := (ofNode_comparison_eq_abort_iff hk).mp h
    · obtain ⟨c, hreads, hc⟩ := exists_reads_of_ofNode_eq_abort hended
      exact ⟨c, .left hk hl hreads, hc⟩
    · obtain ⟨c, hreads, hc⟩ := exists_reads_of_ofNode_eq_abort hended
      exact ⟨c, .right hk hl hp hr hreads, hc⟩
  | conjunction op =>
    rw [ofNode_of_conjunction hk, map_eq_error] at h
    obtain ⟨before, v, after, hitems, hmade, hended⟩ := mapM_eq_error.mp h
    have hv : v ∈ n.itemsOf "children" := by simp [hitems]
    obtain ⟨c, hreads, hc⟩ := exists_reads_of_ofNode_eq_abort hended
    exact ⟨c, .operand hk hitems hmade hreads, hc⟩
  | case | function | subquery | select | other =>
    rw [ofNode] at h
    simp only [hk] at h
    cases h
termination_by sizeOf n
decreasing_by
  · exact Node.sizeOf_lt_of_require hl
  · exact Node.sizeOf_lt_of_require hr
  · exact Node.sizeOf_lt_of_mem_itemsOf hv
  · exact Node.sizeOf_lt_of_require hv

end DeltaPredicate

/-- A constant, the evaluation of a tree on a row and the making of its predicate are ended without
a result exactly where they read a constant of a decimal type with more places than decimals have.
In all other cases they have a result, a fault or an unknown answer. -/
theorem aborts_iff_hasTooManyPlaces (n : Node) :
    (Value.ofConstant n = .error .abort ↔ n.HasTooManyPlaces) ∧
      (∀ row, n.eval row = .aborted ↔ ∃ c ∈ n.parts, n.Reads row c ∧ c.HasTooManyPlaces) ∧
      (DeltaPredicate.ofNode n = .error .abort ↔
        ∃ c ∈ n.parts, DeltaPredicate.Reads n c ∧ c.HasTooManyPlaces) := by
  refine ⟨Value.ofConstant_eq_abort_iff, fun row => Node.eval_eq_aborted_iff, ?_⟩
  constructor
  · intro h
    obtain ⟨c, hreads, hc⟩ := DeltaPredicate.exists_reads_of_ofNode_eq_abort h
    exact ⟨c, hreads.mem_parts, hreads, hc⟩
  · rintro ⟨c, -, hreads, hc⟩
    exact hreads.ofNode_eq_abort hc

theorem hasTooManyPlaces_typedConstant {number : Number} {n : Int64}
    (hn : (Node.number number).int64? = some n) (width : UInt8) {scale : UInt8}
    (hscale : maxScale < scale.toNat) :
    (Build.typedConstant (.number number) (.scalar (.decimal width scale))).HasTooManyPlaces := by
  refine ⟨_, _, .number number, n, width, scale, Node.require_of_field? rfl rfl, ?_,
    Node.require_of_field? rfl rfl, DataType.ofTypeNode_scalar _, Node.require_of_field? rfl rfl,
    hn, hscale⟩
  intro hnull
  exact absurd (Option.some.inj hnull) Bool.false_ne_true

/-- The smallest positive number of 29 places. -/
def tooFineConstant : Node :=
  Build.typedConstant (.number (.ofUInt8 1)) (.scalar (.decimal 38 29))

/-- Not all trees are read, evaluated and made into predicates without an abort. -/
theorem not_forall_ends : ¬∀ (n : Node) (row : Row), Value.ofConstant n ≠ .error .abort ∧
    n.eval row ≠ .aborted ∧ DeltaPredicate.ofNode n ≠ .error .abort := by
  intro h
  have hplaces : tooFineConstant.HasTooManyPlaces :=
    hasTooManyPlaces_typedConstant (DataType.int64?_ofUInt8 1) 38 (by decide)
  exact (h tooFineConstant []).1 (Value.ofConstant_eq_abort_iff.mpr hplaces)

end PartitionPruning
