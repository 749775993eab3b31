import PartitionPruning.DataType.Serialized
import PartitionPruning.Proofs.Failure

/-! The type object of a type is read as that type. Lists and maps are written alike, over the type
of their items or entries, and only the id tells which of the two is meant. -/

namespace PartitionPruning

theorem Node.requireWithin_of_require {n v : Node} {key : String} (h : n.require key = .ok v) :
    n.requireWithin key = .ok ⟨v, sizeOf_lt_of_require h⟩ := by
  unfold requireWithin
  split
  · rename_i w hw
    obtain rfl := Except.ok.inj (hw.symm.trans h)
    rfl
  · rename_i hw
    simp [h] at hw

theorem Node.require_of_requireWithin {n : Node} {key : String}
    {v : { v : Node // sizeOf v < sizeOf n }} (h : n.requireWithin key = .ok v) :
    n.require key = .ok v.val := by
  unfold requireWithin at h
  split at h
  · rw [← Except.ok.inj h]
    assumption
  · contradiction

namespace DataType

/-- Induction from the parts of a type, the fields of a struct among them, to the whole. -/
@[elab_as_elim]
theorem partInduction {motive : DataType → Prop} (scalar : ∀ t, motive (scalar t))
    (list : ∀ t, motive t → motive (list t))
    (map : ∀ k v, motive k → motive v → motive (map k v))
    (struct : ∀ fs : List (String × DataType), (∀ f ∈ fs, motive f.2) → motive (struct fs))
    (t : DataType) : motive t := by
  cases t with
  | scalar t => exact scalar t
  | list t => exact list t (partInduction scalar list map struct t)
  | map k v =>
    exact map k v (partInduction scalar list map struct k) (partInduction scalar list map struct v)
  | struct fs => exact struct fs fun f hf => partInduction scalar list map struct f.2
termination_by sizeOf t
decreasing_by
  all_goals simp_wf
  all_goals try omega
  have := List.sizeOf_lt_of_mem hf
  cases f
  simp only [Prod.mk.sizeOf_spec] at this ⊢
  omega

/-! ### Scalar types -/

theorem ofTypeNode_typeObject {id : String} {type : ScalarType} (info : Node)
    (h : Fields.get? scalarIds id = some type) :
    ofTypeNode (typeObject id info) = .ok (scalar type) := by
  have hid : (typeObject id info).require "id" = .ok (.string id) := rfl
  rw [ofTypeNode, hid]
  simp [bind, Except.bind, Node.text?, h, pure, Except.pure]

theorem int64?_ofUInt8 (n : UInt8) :
    (Node.number (.ofUInt8 n)).int64? = some (.ofInt n.toNat) := by
  have := n.toNat_lt
  show toInt64? n.toNat = _
  rw [toInt64?, if_pos (by omega)]

theorem decimalParameter_ofInt (what : String) (n : UInt8) :
    decimalParameter what (.ofInt n.toNat) = .ok n := by
  have hlt := n.toNat_lt
  have hvalue : (Int64.ofInt n.toNat).toInt = n.toNat := by
    rw [Int64.toInt_ofInt]
    exact Int.bmod_eq_of_le (by simp [Int64.size]) (by simp [Int64.size]; omega)
  rw [decimalParameter, hvalue, if_pos (by omega), Int.toNat_natCast, UInt8.ofNat_toNat]

theorem decimalType_ofInt (width scale : UInt8) :
    decimalType (.ofInt width.toNat) (.ofInt scale.toNat) = .ok (.decimal width scale) := by
  rw [decimalType, decimalParameter_ofInt, ok_bind, decimalParameter_ofInt, ok_bind]
  rfl

theorem ofTypeNode_decimal (width scale : UInt8) :
    ofTypeNode (toTypeNode (scalar (.decimal width scale))) =
      .ok (scalar (.decimal width scale)) := by
  have hid : (toTypeNode (scalar (.decimal width scale))).require "id" =
      .ok (.string "DECIMAL") := rfl
  have hinfo : (toTypeNode (scalar (.decimal width scale))).require "type_info" =
      .ok (scalarInfo (.decimal width scale)) := rfl
  have hwidth : (scalarInfo (.decimal width scale)).require "width" =
      .ok (.number (.ofUInt8 width)) := rfl
  have hscale : (scalarInfo (.decimal width scale)).require "scale" =
      .ok (.number (.ofUInt8 scale)) := rfl
  have hplain : Fields.get? scalarIds "DECIMAL" = none := by decide
  rw [ofTypeNode, hid, ok_bind]
  simp only [Node.text?, hplain]
  rw [if_pos trivial, hinfo, ok_bind, hwidth, ok_bind, hscale, ok_bind, int64?_ofUInt8,
    int64?_ofUInt8]
  simp only []
  rw [decimalType_ofInt]
  rfl

theorem ofTypeNode_scalar (t : ScalarType) :
    ofTypeNode (toTypeNode (scalar t)) = .ok (scalar t) := by
  rw [toTypeNode]
  cases t with
  | decimal width scale => exact ofTypeNode_decimal width scale
  | _ => exact ofTypeNode_typeObject _ (by decide)

/-! ### Types of parts -/

theorem require_id (id : String) (info : Node) :
    (typeObject id info).require "id" = .ok (.string id) := rfl

theorem require_typeInfo (id layout : String) (parameters : Fields Node) :
    (typeObject id (typeInfo layout parameters)).require "type_info" =
      .ok (typeInfo layout parameters) := rfl

theorem exists_typeObject (t : DataType) : ∃ id info, toTypeNode t = typeObject id info := by
  cases t with
  | scalar t => exact ⟨_, _, by rw [toTypeNode]⟩
  | list t => exact ⟨_, _, by rw [toTypeNode]⟩
  | map k v => exact ⟨_, _, by rw [toTypeNode]⟩
  | struct fs => exact ⟨_, _, by rw [toTypeNode]⟩

theorem require_childType (layout : String) (t : DataType) :
    (typeInfo layout [("child_type", toTypeNode t)]).require "child_type" =
      .ok (toTypeNode t) := by
  obtain ⟨id, info, h⟩ := t.exists_typeObject
  rw [h]
  rfl

theorem require_second (name : String) (t : DataType) :
    (structField name (toTypeNode t)).require "second" = .ok (toTypeNode t) := by
  obtain ⟨id, info, h⟩ := t.exists_typeObject
  rw [h]
  rfl

/-- Lists and maps keep the type of their items or entries in the same place. -/
theorem requireWithin_childType {β : Type} (id layout : String) (element : DataType)
    (read : Node → Except Fault β) :
    (do
      let info ← (typeObject id
        (typeInfo layout [("child_type", toTypeNode element)])).requireWithin "type_info"
      let child ← info.val.requireWithin "child_type"
      read child.val) = read (toTypeNode element) := by
  rw [Node.requireWithin_of_require (require_typeInfo _ _ _), ok_bind]
  dsimp only
  rw [Node.requireWithin_of_require (require_childType _ _), ok_bind]

variable {element t : DataType}

theorem ofTypeNode_list (layout : String) (h : ofTypeNode (toTypeNode element) = .ok t) :
    ofTypeNode (typeObject "LIST" (typeInfo layout [("child_type", toTypeNode element)])) =
      .ok (list t) := by
  have hplain : Fields.get? scalarIds "LIST" = none := by decide
  rw [ofTypeNode, require_id, ok_bind]
  simp only [Node.text?, hplain]
  rw [if_neg (by decide), if_pos trivial]
  refine (requireWithin_childType _ _ _ fun child => list <$> ofTypeNode child).trans ?_
  rw [h]
  rfl

theorem ofTypeNode_map (layout : String) (h : ofTypeNode (toTypeNode element) = .ok t) :
    ofTypeNode (typeObject "MAP" (typeInfo layout [("child_type", toTypeNode element)])) =
      t.ofEntryType := by
  have hplain : Fields.get? scalarIds "MAP" = none := by decide
  rw [ofTypeNode, require_id, ok_bind]
  simp only [Node.text?, hplain]
  rw [if_neg (by decide), if_neg (by decide), if_pos trivial]
  refine (requireWithin_childType _ _ _ fun child => do (← ofTypeNode child).ofEntryType).trans ?_
  rw [h, ok_bind]

theorem toFieldNodes_eq (fs : List (String × DataType)) :
    toFieldNodes fs = fs.map fun f => structField f.1 (toTypeNode f.2) := by
  induction fs with
  | nil => rw [toFieldNodes, List.map_nil]
  | cons f fs ih => rw [toFieldNodes, ih, List.map_cons]

/-- The fields of a struct are read one by one, whatever their names are. -/
theorem ofTypeNode_struct {fs : List (String × DataType)}
    (h : ∀ f ∈ fs, ofTypeNode (toTypeNode f.2) = .ok f.2) :
    ofTypeNode (toTypeNode (struct fs)) = .ok (struct fs) := by
  have hplain : Fields.get? scalarIds "STRUCT" = none := by decide
  have hchildren (fields : List Node) :
      (typeInfo "STRUCT_TYPE_INFO" [("child_types", .array fields)]).require "child_types" =
        .ok (.array fields) := rfl
  have hname (name : String) (type : Node) :
      (structField name type).require "first" = .ok (.string name) := rfl
  rw [toTypeNode, toFieldNodes_eq, ofTypeNode, require_id, ok_bind]
  simp only [Node.text?, hplain]
  rw [if_neg (by decide), if_neg (by decide), if_neg (by decide), if_pos trivial,
    Node.requireWithin_of_require (require_typeInfo _ _ _), ok_bind]
  dsimp only
  rw [Node.requireWithin_of_require (hchildren _), ok_bind]
  refine map_eq_ok.mpr ⟨fs, mapM_attach_map fun f hf => ?_, rfl⟩
  rw [hname, ok_bind]
  dsimp only
  rw [Node.requireWithin_of_require (require_second _ _), ok_bind, h f hf]
  rfl

/-- Every type is read back from its type object. -/
theorem ofTypeNode_toTypeNode (t : DataType) : ofTypeNode (toTypeNode t) = .ok t := by
  induction t using partInduction with
  | scalar t => exact ofTypeNode_scalar t
  | list t ih =>
    rw [toTypeNode]
    exact ofTypeNode_list _ ih
  | map k v ihk ihv =>
    -- A map is written over the struct of its entries, which has two fields.
    have hentry : ofTypeNode (toTypeNode (struct [("key", k), ("value", v)])) =
        .ok (struct [("key", k), ("value", v)]) := by
      refine ofTypeNode_struct fun f hf => ?_
      rcases List.mem_cons.mp hf with rfl | hf
      · exact ihk
      · rw [List.mem_singleton.mp hf]
        exact ihv
    exact ofTypeNode_map _ hentry
  | struct fs ih => exact ofTypeNode_struct ih

end DataType

end PartitionPruning
