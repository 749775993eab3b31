import PartitionPruning.Text.Digits
import PartitionPruning.Tree.Fields

/-! The types of columns: scalar types, which values have, and lists, maps and structs of them. -/

namespace PartitionPruning

inductive ScalarType where
  /-- The type of a column that has been seen without one. -/
  | null
  | boolean
  | bit
  | tinyInt
  | smallInt
  | integer
  | bigInt
  | float
  | double
  | decimal (width scale : UInt8)
  | varchar
  | blob
  | date
  | time
  | timestamp
  | timestampTz
  | interval
  deriving DecidableEq, Repr

def ScalarType.id : ScalarType → String
  | null => "NULL"
  | boolean => "BOOLEAN"
  | bit => "BIT"
  | tinyInt => "TINYINT"
  | smallInt => "SMALLINT"
  | integer => "INTEGER"
  | bigInt => "BIGINT"
  | float => "FLOAT"
  | double => "DOUBLE"
  | decimal _ _ => "DECIMAL"
  | varchar => "VARCHAR"
  | blob => "BLOB"
  | date => "DATE"
  | time => "TIME"
  | timestamp => "TIMESTAMP"
  | timestampTz => "TIMESTAMP WITH TIME ZONE"
  | interval => "INTERVAL"

def ScalarType.sql : ScalarType → String
  | decimal width scale => s!"DECIMAL({natText width.toNat},{natText scale.toNat})"
  | timestampTz => "TIMESTAMPTZ"
  | t => t.id

inductive DataType where
  | scalar (type : ScalarType)
  | list (element : DataType)
  | map (key value : DataType)
  | struct (fields : List (String × DataType))
  deriving Inhabited

abbrev StructType := Fields DataType

namespace DataType

/-! ### Equality -/

mutual

def sameType : DataType → DataType → Bool
  | scalar a, scalar b => a == b
  | list a, list b => sameType a b
  | map k v, map l w => sameType k l && sameType v w
  | struct fs, struct gs => sameFields fs gs
  | _, _ => false

def sameFields : List (String × DataType) → List (String × DataType) → Bool
  | [], [] => true
  | (k, t) :: fs, (l, u) :: gs => k == l && sameType t u && sameFields fs gs
  | _, _ => false

end

mutual

theorem sameType_refl : (t : DataType) → sameType t t = true
  | scalar _ => by simp [sameType]
  | list t => by simp [sameType, sameType_refl t]
  | map k v => by simp [sameType, sameType_refl k, sameType_refl v]
  | struct fs => by simp [sameType, sameFields_refl fs]

theorem sameFields_refl : (fs : List (String × DataType)) → sameFields fs fs = true
  | [] => rfl
  | (_, t) :: fs => by simp [sameFields, sameType_refl t, sameFields_refl fs]

end

mutual

theorem eq_of_sameType : (a b : DataType) → sameType a b = true → a = b
  | scalar _, b, h => by cases b <;> simp_all [sameType]
  | list t, b, h => by
    cases b <;> simp_all only [sameType, Bool.false_eq_true]
    rw [eq_of_sameType t _ h]
  | map k v, b, h => by
    cases b <;> simp_all only [sameType, Bool.false_eq_true, Bool.and_eq_true]
    rw [eq_of_sameType k _ h.1, eq_of_sameType v _ h.2]
  | struct fs, b, h => by
    cases b <;> simp_all only [sameType, Bool.false_eq_true]
    rw [eq_of_sameFields fs _ h]

theorem eq_of_sameFields : (fs gs : List (String × DataType)) → sameFields fs gs = true → fs = gs
  | [], gs, h => by cases gs <;> simp_all [sameFields]
  | (k, t) :: fs, gs, h => by
    match gs with
    | [] => simp [sameFields] at h
    | (l, u) :: gs =>
      simp only [sameFields, Bool.and_eq_true, beq_iff_eq] at h
      rw [h.1.1, eq_of_sameType t u h.1.2, eq_of_sameFields fs gs h.2]

end

instance : DecidableEq DataType := fun a b =>
  decidable_of_iff (sameType a b = true) ⟨eq_of_sameType a b, fun h => h ▸ sameType_refl a⟩

/-! ### Spelling -/

def id : DataType → String
  | scalar t => t.id
  | list _ => "LIST"
  | map _ _ => "MAP"
  | struct _ => "STRUCT"

mutual

def sql : DataType → String
  | scalar t => t.sql
  | list t => sql t ++ "[]"
  | map k v => "MAP(" ++ sql k ++ ", " ++ sql v ++ ")"
  | struct [] => "STRUCT()"
  | struct ((name, t) :: fs) => "STRUCT(\"" ++ name ++ "\" " ++ sql t ++ sqlFields fs ++ ")"

/-- The fields of a struct after the first. -/
def sqlFields : List (String × DataType) → String
  | [] => ""
  | (name, t) :: fs => ",\"" ++ name ++ "\" " ++ sql t ++ sqlFields fs

end

/-- The type of columns that are never cast. -/
abbrev untyped : DataType := scalar .null

end DataType

end PartitionPruning
