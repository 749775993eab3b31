import PartitionPruning.Fingerprint
import PartitionPruning.Proofs.Failure
import PartitionPruning.Proofs.Fingerprint.SameQuery
import PartitionPruning.Proofs.Tree.DistinctKeys

/-! What the placeholders of constants hide: two constants with placeholders are the same if the
constants are the same but for their literals. -/

namespace PartitionPruning

open Node

/-- The second payload is the first with the placeholder for a literal. -/
inductive Placed (payload placed : Node) : Literal → Prop
  | text (value : payload.withField "value" (.string "?") = .ok placed) :
    Placed payload placed .text
  | integer (value : payload.withField "value" minusOne = .ok placed) :
    Placed payload placed .integer
  | decimal {type info wide scaled valued typed : Node}
    (typeField : payload.field? "type" = some type)
    (infoField : type.field? "type_info" = some info)
    (width : info.withField "width" one = .ok wide)
    (scale : wide.withField "scale" one = .ok scaled)
    (value : payload.withField "value" minusOne = .ok valued)
    (infoPlaced : type.withField "type_info" scaled = .ok typed)
    (typePlaced : valued.withField "type" typed = .ok placed) : Placed payload placed .decimal

theorem placeholder?_eq_ok {payload type : Node} {placed? : Option Node}
    (htype : payload.field? "type" = some type) (h : placeholder? payload type = .ok placed?) :
    (placed? = none ∧ type.typeLiteral? = none) ∨
      ∃ l placed, placed? = some placed ∧ type.typeLiteral? = some l ∧ Placed payload placed l := by
  unfold placeholder? at h
  split at h
  · rename_i hid
    obtain ⟨placed, hplaced, rfl⟩ := map_eq_ok.mp h
    exact Or.inr ⟨.text, placed, rfl, by simp [typeLiteral?, hid], .text hplaced⟩
  · rename_i hid
    obtain ⟨placed, hplaced, rfl⟩ := map_eq_ok.mp h
    exact Or.inr ⟨.integer, placed, rfl, by simp [typeLiteral?, hid], .integer hplaced⟩
  · rename_i hid
    simp only [bind_eq_ok, map_eq_ok] at h
    obtain ⟨info, hinfo, wide, hwide, scaled, hscaled, valued, hvalued, typed, htyped, placed,
      hplaced, rfl⟩ := h
    exact Or.inr ⟨.decimal, placed, rfl, by simp [typeLiteral?, hid],
      .decimal htype (field?_of_require hinfo) hwide hscaled hvalued htyped hplaced⟩
  · rename_i hvarchar hinteger hdecimal
    refine Or.inl ⟨(Except.ok.inj h).symm, ?_⟩
    unfold typeLiteral?
    split
    · exact absurd ‹_› hvarchar
    · exact absurd ‹_› hinteger
    · exact absurd ‹_› hdecimal
    · rfl

/-- A constant either stays, or its payload gets the placeholder for its literal. -/
theorem canonicalConstant_eq_ok {a r : Node} (h : canonicalConstant a = .ok r) :
    (a.literal? = none ∧ r = a) ∨
      ∃ l payload placed, a.literal? = some l ∧ a.field? "value" = some payload ∧
        Placed payload placed l ∧ a.withField "value" placed = .ok r := by
  unfold canonicalConstant at h
  obtain ⟨payload, hpayload, h⟩ := bind_eq_ok.mp h
  have hvalue := field?_of_require hpayload
  split at h
  · rename_i hnull
    refine Or.inl ⟨?_, (Except.ok.inj h).symm⟩
    simp [literal?, hvalue, payloadLiteral?, payloadIsNull, hnull]
  · rename_i hnull
    obtain ⟨type, htype, h⟩ := bind_eq_ok.mp h
    obtain ⟨placed?, hplaced?, h⟩ := bind_eq_ok.mp h
    have hliteral : a.literal? = type.typeLiteral? := by
      rw [literal?, hvalue, Option.bind_some, payloadLiteral?, payloadIsNull, decide_eq_false hnull,
        field?_of_require htype]
      rfl
    rcases placeholder?_eq_ok (field?_of_require htype) hplaced? with
      ⟨rfl, hnone⟩ | ⟨l, placed, rfl, hl, hplaced⟩
    · exact Or.inl ⟨hliteral.trans hnone, (Except.ok.inj h).symm⟩
    · exact Or.inr ⟨l, payload, placed, hliteral.trans hl, hvalue, hplaced, h⟩

/-! ### Payloads -/

/-- The paths of a literal, from the payload of its constant down. -/
def Literal.payloadPaths : Literal → List (List String)
  | text | integer => [["value"]]
  | decimal => [["value"], ["type", "type_info", "width"], ["type", "type_info", "scale"]]

theorem Literal.paths_eq (l : Literal) : l.paths = l.payloadPaths.map ("value" :: ·) := by
  cases l <;> rfl

/-- A placeholder hides the literal and nothing else. -/
theorem Placed.same_iff {a b r s : Node} {l : Literal} (ha : Placed a r l) (hb : Placed b s l) :
    r.Same s ↔ SameBut (· ∈ l.payloadPaths) a b := by
  cases ha with
  | text value =>
    cases hb with
    | text value' => exact Node.same_iff.trans (sameBut_overwritten_iff value value' rfl)
  | integer value =>
    cases hb with
    | integer value' => exact Node.same_iff.trans (sameBut_overwritten_iff value value' rfl)
  | decimal typeField infoField width scale value infoPlaced typePlaced =>
    cases hb with
    | decimal typeField' infoField' width' scale' value' infoPlaced' typePlaced' =>
      have hinfo := Node.same_iff.trans ((sameBut_overwritten_iff scale scale' rfl).trans
        (sameBut_overwritten_iff width width' rfl))
      have htype := same_rewritten_iff infoPlaced infoPlaced' infoField infoField' (by decide)
        (by decide) hinfo
      have hpayload := same_rewritten_iff typePlaced typePlaced'
        ((field?_withField_of_ne value (by decide)).trans typeField)
        ((field?_withField_of_ne value' (by decide)).trans typeField') (by decide) (by decide)
        htype
      exact hpayload.trans (sameBut_overwritten_iff value value' rfl)

theorem Placed.payloadLiteral?_eq {payload placed : Node} {l : Literal}
    (h : Placed payload placed l) : placed.payloadLiteral? = payload.payloadLiteral? := by
  have hvalue {n r v : Node} (h : n.withField "value" v = .ok r) :
      r.payloadLiteral? = n.payloadLiteral? := by
    rw [payloadLiteral?, payloadLiteral?, payloadIsNull, payloadIsNull,
      field?_withField_of_ne h (by decide), field?_withField_of_ne h (by decide)]
  cases h with
  | text value => exact hvalue value
  | integer value => exact hvalue value
  | decimal typeField infoField width scale value infoPlaced typePlaced =>
    rw [← hvalue value]
    have htype := (field?_withField_of_ne value (by decide)).trans typeField
    rw [payloadLiteral?, payloadLiteral?, payloadIsNull, payloadIsNull,
      field?_withField_of_ne typePlaced (by decide), field?_withField_self typePlaced, htype,
      Option.bind_some, Option.bind_some, typeLiteral?, typeLiteral?,
      field?_withField_of_ne infoPlaced (by decide)]

/-! ### Constants -/

theorem literal?_of_canonicalConstant {a r : Node} (h : canonicalConstant a = .ok r) :
    r.literal? = a.literal? := by
  rcases canonicalConstant_eq_ok h with ⟨-, rfl⟩ | ⟨l, payload, placed, -, hvalue, hplaced, hr⟩
  · rfl
  · rw [literal?, literal?, field?_withField_self hr, hvalue]
    exact hplaced.payloadLiteral?_eq

theorem not_mem_literalPaths (n : Node) :
    ∀ path ∈ [["value"], ["value", "is_null"], ["value", "type"], ["value", "type", "id"]],
      path ∉ n.literalPaths := by
  unfold literalPaths
  cases n.literal? with
  | none => simp
  | some l => cases l <;> decide

/-- Constants without their values are the same if they are the same up to their literals. -/
theorem canonicalConstant_same_iff {a b r s : Node} (ha : canonicalConstant a = .ok r)
    (hb : canonicalConstant b = .ok s) : r.Same s ↔ SameBut (· ∈ a.literalPaths) a b := by
  by_cases hliteral : a.literal? = b.literal?
  · rcases canonicalConstant_eq_ok ha with ⟨hnone, rfl⟩ | ⟨l, x, v, hl, hx, hv, hr⟩
    · rcases canonicalConstant_eq_ok hb with ⟨-, rfl⟩ | ⟨l, _, _, hl, _⟩
      · rw [literalPaths, hnone]
        exact Node.same_iff
      · cases hnone.symm.trans (hliteral.trans hl)
    · rcases canonicalConstant_eq_ok hb with ⟨hnone, -⟩ | ⟨l', y, w, hl', hy, hw, hs⟩
      · cases hl.symm.trans (hliteral.trans hnone)
      · obtain rfl : l = l' := Option.some.inj (hl.symm.trans (hliteral.trans hl'))
        have hpaths : [] ∉ l.payloadPaths := by cases l <;> decide
        rw [literalPaths, hl, Option.elim_some, l.paths_eq]
        exact same_rewritten_iff hr hs hx hy (by decide) hpaths (hv.same_iff hw)
  -- Which literal a constant has is at no free path, so constants with different ones differ.
  · constructor
    · intro h
      have heq := SameBut.literal?_eq h fun _ _ => not_false
      rw [literal?_of_canonicalConstant ha, literal?_of_canonicalConstant hb] at heq
      exact absurd heq hliteral
    · intro h
      exact absurd (h.literal?_eq (not_mem_literalPaths a)) hliteral

end PartitionPruning
