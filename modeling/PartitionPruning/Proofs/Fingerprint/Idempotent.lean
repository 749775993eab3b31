import PartitionPruning.Proofs.Fingerprint.Kernel

/-! Canonical trees stay as they are. A placeholder is replaced by itself, and what is done to the
constants of a tree does not depend on its positions. -/

namespace PartitionPruning

open Node

/-! ### Placeholders -/

theorem Placed.self {payload placed : Node} {l : Literal} (h : Placed payload placed l) :
    Placed placed placed l := by
  cases h with
  | text value => exact .text (withField_of_field? (field?_withField_self value))
  | integer value => exact .integer (withField_of_field? (field?_withField_self value))
  | @decimal type info wide scaled valued typed typeField infoField width scale value infoPlaced
      typePlaced =>
    have htype : placed.field? "type" = some typed := field?_withField_self typePlaced
    have hinfo : typed.field? "type_info" = some scaled := field?_withField_self infoPlaced
    have hwidth : scaled.field? "width" = some one :=
      (field?_withField_of_ne scale (by decide)).trans (field?_withField_self width)
    have hscale : scaled.field? "scale" = some one := field?_withField_self scale
    have hvalue : placed.field? "value" = some minusOne :=
      (field?_withField_of_ne typePlaced (by decide)).trans (field?_withField_self value)
    exact .decimal htype hinfo (withField_of_field? hwidth) (withField_of_field? hscale)
      (withField_of_field? hvalue) (withField_of_field? hinfo) (withField_of_field? htype)

/-- The id of the types whose constants have such a literal. -/
def Literal.typeId : Literal → String
  | text => "VARCHAR"
  | integer => "INTEGER"
  | decimal => "DECIMAL"

theorem id_of_typeLiteral? {type : Node} {l : Literal} (h : type.typeLiteral? = some l) :
    (type.field? "id").bind text? = some l.typeId := by
  unfold typeLiteral? at h
  split at h
  · rename_i hid
    exact Option.some.inj h ▸ hid
  · rename_i hid
    exact Option.some.inj h ▸ hid
  · rename_i hid
    exact Option.some.inj h ▸ hid
  · contradiction

theorem placeholder?_of_placed {payload placed type : Node} {l : Literal}
    (htype : payload.field? "type" = some type) (hl : type.typeLiteral? = some l)
    (h : Placed payload placed l) : placeholder? payload type = .ok (some placed) := by
  have hid := id_of_typeLiteral? hl
  rw [placeholder?, hid]
  cases h with
  | text value => exact map_eq_ok.mpr ⟨placed, value, rfl⟩
  | integer value => exact map_eq_ok.mpr ⟨placed, value, rfl⟩
  | decimal typeField infoField width scale value infoPlaced typePlaced =>
    obtain rfl := Option.some.inj (htype.symm.trans typeField)
    have hinfo := require_of_field? infoField (isNull_of_withField width)
    simp only [Literal.typeId, hinfo, width, scale, value, infoPlaced, ok_bind]
    exact map_eq_ok.mpr ⟨placed, typePlaced, rfl⟩

theorem canonicalConstant_of_placed {a payload placed r : Node} {l : Literal}
    (hl : a.literal? = some l) (hvalue : a.field? "value" = some payload)
    (hplaced : Placed payload placed l) (hr : a.withField "value" placed = .ok r) :
    canonicalConstant a = .ok r := by
  have hpayload : payload.payloadLiteral? = some l := by
    rw [literal?, hvalue] at hl
    exact hl
  rw [payloadLiteral?] at hpayload
  split at hpayload
  · contradiction
  · rename_i hnull
    obtain ⟨type, htype, htypeLiteral⟩ := Option.bind_eq_some_iff.mp hpayload
    have htypeNull : type.isNull = false := by
      cases type <;> first | rfl | contradiction
    have hnotNull : ¬ (payload.field? "is_null").bind Node.bool? = some true := by
      rw [payloadIsNull, decide_eq_true_eq] at hnull
      exact hnull
    rw [canonicalConstant, require_of_field? hvalue (isNull_of_field? htype), ok_bind,
      if_neg hnotNull, require_of_field? htype htypeNull, ok_bind,
      placeholder?_of_placed htype htypeLiteral hplaced, ok_bind]
    exact hr

/-- A constant without its value stays as it is. -/
theorem canonicalConstant_self {a r : Node} (h : canonicalConstant a = .ok r) :
    canonicalConstant r = .ok r := by
  rcases canonicalConstant_eq_ok h with ⟨-, rfl⟩ | ⟨l, payload, placed, hl, hvalue, hplaced, hr⟩
  · exact h
  · have hplacedValue : r.field? "value" = some placed := field?_withField_self hr
    exact canonicalConstant_of_placed ((literal?_of_canonicalConstant h).trans hl) hplacedValue
      hplaced.self (withField_of_field? hplacedValue)

theorem withoutLiterals_self {n r : Node} (h : withoutLiterals n = .ok r) :
    withoutLiterals r = .ok r :=
  replaceM_replaceM (fun _ _ hr => (withoutLiterals_sameTag hr).isConstant_eq)
    (fun _ _ _ => canonicalConstant_self) h

/-! ### Positions -/

theorem clearPositions_array (xs : List Node) :
    clearPositions (.array xs) = .array (xs.map clearPositions) := by
  rw [clearPositions, clearItemPositions_eq]

/-- What becomes of the value of a field. -/
def clearField (key : String) (v : Node) : Node :=
  if key = "query_location" then Build.zero else clearPositions v

theorem clearPositions_object (fs : Fields Node) :
    clearPositions (.object fs) = .object (fs.map fun e => (e.1, clearField e.1 e.2)) := by
  rw [clearPositions, clearFieldPositions_eq]
  rfl

theorem clearPositions_scalar {n : Node} (h : n.isScalar = true) : clearPositions n = n := by
  cases n <;> first | rfl | contradiction

theorem clearPositions_clearPositions (n : Node) :
    clearPositions (clearPositions n) = clearPositions n := by
  induction n using childInduction with
  | scalar n h => rw [clearPositions_scalar h, clearPositions_scalar h]
  | array xs ih =>
    rw [clearPositions_array, clearPositions_array, List.map_map]
    exact congrArg Node.array (List.map_congr_left ih)
  | object fs ih =>
    rw [clearPositions_object, clearPositions_object, List.map_map]
    refine congrArg Node.object (List.map_congr_left fun e he => Prod.ext rfl ?_)
    show clearField e.1 (clearField e.1 e.2) = clearField e.1 e.2
    unfold clearField
    split
    · rfl
    · exact ih e he

section

variable {n r v : Node} {key : String}

theorem field?_clearPositions (n : Node) (key : String) :
    (clearPositions n).field? key = (n.field? key).map (clearField key) := by
  cases n with
  | object fs =>
    rw [clearPositions_object]
    exact Fields.get?_map clearField fs key
  | _ => rfl

theorem isNull_clearPositions (n : Node) : (clearPositions n).isNull = n.isNull := by
  cases n <;> rfl

theorem text?_clearPositions (n : Node) : (clearPositions n).text? = n.text? := by
  cases n <;> rfl

theorem bool?_clearPositions (n : Node) : (clearPositions n).bool? = n.bool? := by
  cases n <;> rfl

theorem shape_clearPositions (n : Node) : (clearPositions n).shape = n.shape := by
  cases n <;> rfl

theorem clearField_of_ne (hkey : key ≠ "query_location") (v : Node) :
    clearField key v = clearPositions v := if_neg hkey

theorem require_clearPositions (hkey : key ≠ "query_location") (h : n.require key = .ok v) :
    (clearPositions n).require key = .ok (clearPositions v) := by
  have hnull : v.isNull = false := by
    simpa using (Option.filter_eq_some_iff.mp (present?_of_require h)).2
  refine require_of_field? ?_ ((isNull_clearPositions v).trans hnull)
  rw [field?_clearPositions, field?_of_require h, Option.map_some, clearField_of_ne hkey]

theorem withField_clearPositions (hkey : key ≠ "query_location")
    (h : n.withField key v = .ok r) :
    (clearPositions n).withField key (clearPositions v) = .ok (clearPositions r) := by
  cases n <;> simp only [withField, reduceCtorEq, Except.ok.injEq] at h
  rw [← h, clearPositions_object, clearPositions_object, withField, ← Fields.insert_map,
    clearField_of_ne hkey]

theorem bind_field?_clearPositions {β : Type} {f : Node → Option β}
    (hf : ∀ v, f (clearPositions v) = f v) (hkey : key ≠ "query_location") (n : Node) :
    ((clearPositions n).field? key).bind f = (n.field? key).bind f := by
  rw [field?_clearPositions]
  cases n.field? key with
  | none => rfl
  | some v =>
    show f (clearField key v) = f v
    rw [clearField_of_ne hkey, hf]

theorem isConstant_clearPositions (n : Node) : (clearPositions n).isConstant = n.isConstant := by
  refine SameTag.isConstant_eq ⟨?_, ?_, text?_clearPositions n, shape_clearPositions n⟩
  · exact bind_field?_clearPositions text?_clearPositions (by decide) n
  · exact bind_field?_clearPositions text?_clearPositions (by decide) n

end

/-! ### Constants without positions -/

theorem placeholder?_clearPositions {payload type : Node} {placed? : Option Node}
    (h : placeholder? payload type = .ok placed?) :
    placeholder? (clearPositions payload) (clearPositions type) =
      .ok (placed?.map clearPositions) := by
  have hid : ((clearPositions type).field? "id").bind text? = (type.field? "id").bind text? :=
    bind_field?_clearPositions text?_clearPositions (by decide) type
  unfold placeholder? at h ⊢
  rw [hid]
  split at h
  · obtain ⟨placed, hplaced, rfl⟩ := map_eq_ok.mp h
    exact map_eq_ok.mpr ⟨_, withField_clearPositions (by decide) hplaced, rfl⟩
  · obtain ⟨placed, hplaced, rfl⟩ := map_eq_ok.mp h
    exact map_eq_ok.mpr ⟨_, withField_clearPositions (by decide) hplaced, rfl⟩
  · simp only [bind_eq_ok, map_eq_ok] at h ⊢
    obtain ⟨info, hinfo, wide, hwide, scaled, hscaled, valued, hvalued, typed, htyped, placed,
      hplaced, rfl⟩ := h
    exact ⟨_, require_clearPositions (by decide) hinfo,
      _, withField_clearPositions (by decide) hwide,
      _, withField_clearPositions (by decide) hscaled,
      _, withField_clearPositions (by decide) hvalued,
      _, withField_clearPositions (by decide) htyped,
      _, withField_clearPositions (by decide) hplaced, rfl⟩
  · obtain rfl := Except.ok.inj h
    rfl

theorem canonicalConstant_clearPositions {a r : Node} (h : canonicalConstant a = .ok r) :
    canonicalConstant (clearPositions a) = .ok (clearPositions r) := by
  obtain ⟨payload, hpayload, h⟩ := bind_eq_ok.mp h
  rw [canonicalConstant, require_clearPositions (by decide) hpayload, ok_bind,
    bind_field?_clearPositions bool?_clearPositions (by decide)]
  split at h
  · rw [if_pos ‹_›, ← Except.ok.inj h]
    rfl
  · obtain ⟨type, htype, h⟩ := bind_eq_ok.mp h
    obtain ⟨placed?, hplaced?, h⟩ := bind_eq_ok.mp h
    rw [if_neg ‹_›, require_clearPositions (by decide) htype, ok_bind,
      placeholder?_clearPositions hplaced?, ok_bind]
    cases placed? with
    | none =>
      rw [← Except.ok.inj h]
      rfl
    | some placed => exact withField_clearPositions (by decide) h

/-- Positions play no part in what is done to the constants of a tree. -/
theorem withoutLiterals_clearPositions {n r : Node} (h : withoutLiterals n = .ok r) :
    withoutLiterals (clearPositions n) = .ok (clearPositions r) := by
  induction n using replaceInduction Node.isConstant generalizing r with
  | replaced n hn =>
    rw [withoutLiterals_constant hn] at h
    rw [withoutLiterals_constant ((isConstant_clearPositions n).trans hn)]
    exact canonicalConstant_clearPositions h
  | scalar n hn hscalar =>
    rw [withoutLiterals_scalar hscalar h, clearPositions_scalar hscalar]
    exact replaceM_of_isScalar hn hscalar
  | array xs hn ih =>
    obtain ⟨ys, rfl, hys⟩ := withoutLiterals_array h
    rw [clearPositions_array, clearPositions_array, withoutLiterals, replaceM_array rfl]
    exact map_eq_ok.mpr ⟨_, mapM_map_eq_ok (fun x hx y => ih x hx) (mapM_eq_ok.mpr hys), rfl⟩
  | object fs hn ih =>
    obtain ⟨gs, rfl, hgs⟩ := replaceM_object_eq_ok hn h
    have hconstant := (isConstant_clearPositions (.object fs)).trans hn
    rw [clearPositions_object] at hconstant ⊢
    rw [clearPositions_object, withoutLiterals, replaceM_object hconstant]
    refine map_eq_ok.mpr ⟨_, mapM_map_eq_ok (fun e he g hg => ?_) hgs, rfl⟩
    obtain ⟨v, hv, rfl⟩ := map_eq_ok.mp hg
    refine map_eq_ok.mpr ⟨_, ?_, rfl⟩
    show withoutLiterals (clearField e.1 e.2) = .ok (clearField e.1 v)
    unfold clearField
    split
    · exact replaceM_of_isScalar rfl rfl
    · exact ih e he hv

/-- A canonical tree is its own canonical tree. -/
theorem canonicalize_canonicalize {t c : Node} (h : canonicalize t = .ok c) :
    canonicalize c = .ok c := by
  obtain ⟨u, hu, rfl⟩ := map_eq_ok.mp h
  have hself := withoutLiterals_clearPositions (withoutLiterals_self hu)
  exact map_eq_ok.mpr ⟨_, hself, clearPositions_clearPositions u⟩

/-- A decimal in a list, and another one where a position is expected. -/
def decimalAsPosition : Node :=
  .object [("query_location", decimalAt 12 5 3 99), ("select_list", .array [decimalAt 30 4 2 150])]

/-- Its canonical tree is another one, but has itself as its canonical tree. -/
theorem canonicalize_canonicalize_decimals :
    ∃ c, canonicalize decimalAsPosition = .ok c ∧ c ≠ decimalAsPosition ∧
      canonicalize c = .ok c := by
  obtain ⟨c, hc⟩ : ∃ c, canonicalize decimalAsPosition = .ok c := ⟨_, rfl⟩
  refine ⟨c, hc, ?_, canonicalize_canonicalize hc⟩
  rintro rfl
  have hchanged : (canonicalize decimalAsPosition).toOption ≠ some decimalAsPosition := by decide
  exact hchanged (toOption_eq_some.mpr hc)

end PartitionPruning
