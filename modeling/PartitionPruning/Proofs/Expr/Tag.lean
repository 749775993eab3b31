import PartitionPruning.Expr.Kind
import PartitionPruning.Proofs.Tree.Replace
import PartitionPruning.Proofs.Tree.Same

/-! The tag of a node, which its kind is read off, stays the same where other fields are written and
where nodes below are replaced by nodes with their tags. -/

namespace PartitionPruning

namespace Node

/-- The nodes have the same shape, class and type. They are also the same text, if any, and so they
may stand for each other as a class or a type. -/
structure SameTag (a b : Node) : Prop where
  class? : a.class? = b.class?
  type? : a.type? = b.type?
  text? : a.text? = b.text?
  shape : a.shape = b.shape

theorem SameTag.refl (n : Node) : n.SameTag n := ⟨rfl, rfl, rfl, rfl⟩

theorem SameTag.trans {a b c : Node} (hab : a.SameTag b) (hbc : b.SameTag c) : a.SameTag c :=
  ⟨hab.class?.trans hbc.class?, hab.type?.trans hbc.type?, hab.text?.trans hbc.text?,
    hab.shape.trans hbc.shape⟩

theorem Same.sameTag {a b : Node} (h : a.Same b) : a.SameTag b where
  class? := SameBut.field?_bind h not_false (by decide) fun _ _ => SameBut.text?_eq
  type? := SameBut.field?_bind h not_false (by decide) fun _ _ => SameBut.text?_eq
  text? := SameBut.text?_eq h
  shape := SameBut.shape_eq h

theorem SameTag.kind_eq {a b : Node} (h : a.SameTag b) : a.kind = b.kind := by
  rw [kind, kind, h.class?, h.type?]

theorem SameTag.isConstant_eq {a b : Node} (h : a.SameTag b) : a.isConstant = b.isConstant := by
  rw [isConstant, isConstant, h.kind_eq]

/-! ### Kinds -/

/-- Only objects with a type have a meaning. -/
theorem exists_type?_of_kind {n : Node} (h : n.kind ≠ .other) : ∃ type, n.type? = some type := by
  unfold kind at h
  split at h
  · contradiction
  · exact ⟨_, ‹_›⟩

theorem isComparison_of_kind {n : Node} {op : CompareOp} (h : n.kind = .comparison op) :
    n.isComparison = true := by
  unfold kind at h
  cases htype : n.type? with
  | none => simp [htype] at h
  | some type =>
    cases hclass : n.class? with
    | none =>
      simp only [htype, hclass] at h
      split at h <;> contradiction
    | some c =>
      by_cases hc : c = "COMPARISON"
      · simp [isComparison, hasClass, hclass, hc]
      · simp only [htype, hclass, hc, if_false] at h
        cases hop : ConjunctionOp.ofTypeName? type <;> grind

/-! ### Writing fields -/

variable {n r v : Node} {key : String}

theorem exists_withField {type : String} (h : n.type? = some type) (key : String) (v : Node) :
    ∃ r, n.withField key v = .ok r := by
  cases n with
  | object fs => exact ⟨_, rfl⟩
  | _ => contradiction

theorem sameTag_withField (h : n.withField key v = .ok r) (hclass : key ≠ "class")
    (htype : key ≠ "type") : r.SameTag n := by
  have hobject : r.text? = n.text? ∧ r.shape = n.shape := by
    cases n <;> simp only [withField, reduceCtorEq, Except.ok.injEq] at h
    rw [← h]
    exact ⟨rfl, rfl⟩
  refine ⟨?_, ?_, hobject.1, hobject.2⟩
  · rw [class?, field?_withField_of_ne h hclass, ← class?]
  · rw [type?, field?_withField_of_ne h htype, ← type?]

/-! ### Replacing nodes -/

section

variable {ε : Type} {p : Node → Bool} {f : Node → Except ε Node}

/-- Replacing nodes by nodes with the same tags keeps the tags of all nodes. -/
theorem sameTag_of_replaceM (hf : ∀ x y, p x = true → f x = .ok y → y.SameTag x) {n r : Node}
    (hr : replaceM p f n = .ok r) : r.SameTag n := by
  induction n using replaceInduction p generalizing r with
  | replaced n hn =>
    rw [replaceM_of_pos hn] at hr
    exact hf n r hn hr
  | scalar n hn hscalar =>
    rw [replaceM_of_isScalar hn hscalar] at hr
    rw [← Except.ok.inj hr]
    exact .refl _
  | array xs hn ih =>
    obtain ⟨ys, rfl, -⟩ := replaceM_array_eq_ok hn hr
    exact ⟨rfl, rfl, rfl, rfl⟩
  | object fs hn ih =>
    obtain ⟨gs, rfl, hgs⟩ := replaceM_object_eq_ok hn hr
    obtain ⟨-, hget⟩ := Fields.mapM_values_eq_ok hgs
    have htext (key : String) : (Fields.get? gs key).bind Node.text? =
        (Fields.get? fs key).bind Node.text? := by
      have hkey := hget key
      cases hv : Fields.get? fs key with
      | none =>
        rw [hv, Option.map_none, eq_comm, Option.map_eq_none_iff] at hkey
        rw [hkey]
      | some v =>
        rw [hv, Option.map_some, eq_comm, Option.map_eq_some_iff] at hkey
        obtain ⟨w, hw, hvw⟩ := hkey
        rw [hw]
        exact (ih _ (Fields.mem_of_get? hv) hvw.symm).text?
    exact ⟨htext "class", htext "type", rfl, rfl⟩

end

end Node

end PartitionPruning
