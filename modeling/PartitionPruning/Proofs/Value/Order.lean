import PartitionPruning.Proofs.Numeric.Decimal
import PartitionPruning.Value.Order

/-! The order of values. Swapping two values swaps it. Values other than floats are compared as keys
of their kind, on which the order is transitive. -/

namespace PartitionPruning

instance : Std.TransCmp Date.compare :=
  inferInstanceAs (Std.TransCmp (compareLex (compareOn Date.year)
    (compareLex (compareOn Date.month) (compareOn Date.day))))

instance : Std.TransCmp Time.compare :=
  inferInstanceAs (Std.TransCmp (compareLex (compareOn Time.hour)
    (compareLex (compareOn Time.minute) (compareLex (compareOn Time.second)
      (compareOn Time.nano)))))

instance : Std.TransCmp Timestamp.compare :=
  let _ : Ord Date := ⟨Date.compare⟩
  let _ : Ord Time := ⟨Time.compare⟩
  have : Std.TransOrd Date := inferInstanceAs (Std.TransCmp Date.compare)
  have : Std.TransOrd Time := inferInstanceAs (Std.TransCmp Time.compare)
  inferInstanceAs (Std.TransCmp (compareLex (compareOn Timestamp.date) (compareOn Timestamp.time)))

theorem Double.compare_swap (x y : Double) : y.compare x = (x.compare y).map .swap := by
  cases x with
  | nan => cases y <;> rfl
  | infinite a =>
    cases y with
    | nan => rfl
    | infinite b => cases a <;> cases b <;> rfl
    | finite y => cases a <;> rfl
  | finite x =>
    cases y with
    | nan => rfl
    | infinite b => cases b <;> rfl
    | finite y => exact congrArg some Std.OrientedOrd.eq_swap

namespace Value

/-- Two values have an order both ways round, or none. -/
theorem compare_swap (a b : Value) : b.compare a = (a.compare b).map .swap := by
  -- Only values of different kinds are split, since they are compared as doubles if at all.
  cases a <;> cases b <;> simp only [compare, Option.map_none] <;> first
    | (split <;> split <;> simp_all [← Double.compare_swap])
    | exact congrArg some Std.OrientedOrd.eq_swap
    | exact congrArg some Std.OrientedCmp.eq_swap

theorem compare_of_swap {a b : Value} {o : Ordering} (h : a.compare b = some o) :
    b.compare a = some o.swap := by
  rw [compare_swap, h]
  rfl

end Value

/-! ### Kinds of values -/

/-- The values that have an order with each other. -/
inductive ValueKind where
  | truth
  | number
  | text
  | moment
  deriving DecidableEq, Repr

namespace ValueKind

/-- What the values of a kind are compared as. -/
def Key : ValueKind → Type
  | truth => Bool
  | number => Decimal
  | text => String
  | moment => Timestamp

def compare : (kind : ValueKind) → kind.Key → kind.Key → Ordering
  | truth => (Ord.compare : Bool → Bool → Ordering)
  | number => Decimal.compare
  | text => (Ord.compare : String → String → Ordering)
  | moment => Timestamp.compare

instance (kind : ValueKind) : Std.TransCmp kind.compare := by
  cases kind with
  | truth => exact inferInstanceAs (Std.TransCmp (Ord.compare : Bool → Bool → Ordering))
  | number => exact inferInstanceAs (Std.TransCmp Decimal.compare)
  | text => exact inferInstanceAs (Std.TransCmp (Ord.compare : String → String → Ordering))
  | moment => exact inferInstanceAs (Std.TransCmp Timestamp.compare)

end ValueKind

theorem Decimal.coefficient_ofInt64 (n : Int64) : (ofInt64 n).coefficient = n.toInt := by
  simp only [coefficient, ofInt64, decide_eq_true_eq]
  split <;> omega

theorem Decimal.compare_ofInt64 (a b : Int64) :
    (ofInt64 a).compare (ofInt64 b) = Ord.compare a.toInt b.toInt := by
  rw [compare, coefficient_ofInt64, coefficient_ofInt64]
  show Ord.compare (a.toInt * 10 ^ 0) (b.toInt * 10 ^ 0) = _
  rw [Int.pow_zero, Int.mul_one, Int.mul_one]

theorem Timestamp.compare_atMidnight (a b : Date) :
    (atMidnight a).compare (atMidnight b) = a.compare b := by
  show (a.compare b).then (Time.midnight.compare Time.midnight) = a.compare b
  rw [show Time.midnight.compare Time.midnight = .eq from by decide, Ordering.then_eq]

namespace Value

/-- The key as which a value is compared. Integers are decimals without places, and dates are their
midnights; floats are compared in their own way. -/
inductive ComparedAs : Value → (kind : ValueKind) → kind.Key → Prop
  | bool (b : Bool) : ComparedAs (bool b) .truth b
  | int (n : Int64) : ComparedAs (int n) .number (Decimal.ofInt64 n)
  | decimal (d : Decimal) : ComparedAs (decimal d) .number d
  | string (s : String) : ComparedAs (string s) .text s
  | date (d : Date) : ComparedAs (date d) .moment (Timestamp.atMidnight d)
  | timestamp (t : Timestamp) : ComparedAs (timestamp t) .moment t

def isFloat : Value → Bool
  | float _ => true
  | _ => false

variable {a b c : Value} {kind other : ValueKind} {x : kind.Key} {y : other.Key}

theorem null_or_comparedAs (h : a.isFloat = false) :
    a = null ∨ ∃ (kind : ValueKind) (x : kind.Key), a.ComparedAs kind x := by
  cases a with
  | null => exact Or.inl rfl
  | float x => contradiction
  | bool b => exact Or.inr ⟨_, _, .bool b⟩
  | int n => exact Or.inr ⟨_, _, .int n⟩
  | decimal d => exact Or.inr ⟨_, _, .decimal d⟩
  | string s => exact Or.inr ⟨_, _, .string s⟩
  | date d => exact Or.inr ⟨_, _, .date d⟩
  | timestamp t => exact Or.inr ⟨_, _, .timestamp t⟩

theorem ComparedAs.unique (hx : a.ComparedAs kind x) (hy : a.ComparedAs other y) :
    (⟨kind, x⟩ : (kind : ValueKind) × kind.Key) = ⟨other, y⟩ := by
  cases hx <;> cases hy <;> rfl

theorem ComparedAs.compare_eq {y : kind.Key} (ha : a.ComparedAs kind x)
    (hb : b.ComparedAs kind y) : a.compare b = some (kind.compare x y) := by
  cases ha <;> cases hb <;> first
    | rfl
    | exact congrArg some (Decimal.compare_ofInt64 _ _).symm
    | exact congrArg some (Timestamp.compare_atMidnight _ _).symm

theorem ComparedAs.compare_of_ne (ha : a.ComparedAs kind x) (hb : b.ComparedAs other y)
    (h : kind ≠ other) : a.compare b = none := by
  cases ha <;> cases hb <;> first
    | exact absurd rfl h
    | rfl

theorem null_compare (b : Value) : null.compare b = none := by
  cases b <;> rfl

theorem compare_null (a : Value) : a.compare null = none := by
  cases a <;> rfl

/-- Values that have an order are compared as keys of one kind. -/
theorem exists_comparedAs {o : Ordering} (ha : a.isFloat = false) (hb : b.isFloat = false)
    (h : a.compare b = some o) : ∃ (kind : ValueKind) (x y : kind.Key),
      a.ComparedAs kind x ∧ b.ComparedAs kind y ∧ kind.compare x y = o := by
  rcases null_or_comparedAs ha with rfl | ⟨kind, x, hx⟩
  · simp [null_compare] at h
  rcases null_or_comparedAs hb with rfl | ⟨other, y, hy⟩
  · simp [compare_null] at h
  by_cases heq : kind = other
  · subst heq
    rw [hx.compare_eq hy, Option.some.injEq] at h
    exact ⟨kind, x, y, hx, hy, h⟩
  · simp [hx.compare_of_ne hy heq] at h

/-- The first value does not come after the second one. -/
def Le (a b : Value) : Prop := ∃ o, a.compare b = some o ∧ o.isLE = true

theorem le_trans (ha : a.isFloat = false) (hb : b.isFloat = false) (hc : c.isFloat = false)
    (hab : a.Le b) (hbc : b.Le c) : a.Le c := by
  obtain ⟨o, ho, hle⟩ := hab
  obtain ⟨p, hp, hle'⟩ := hbc
  obtain ⟨kind, x, y, hx, hy, rfl⟩ := exists_comparedAs ha hb ho
  obtain ⟨other, y', z, hy', hz, rfl⟩ := exists_comparedAs hb hc hp
  cases hy.unique hy'
  exact ⟨_, hx.compare_eq hz, Std.TransCmp.isLE_trans hle hle'⟩

/-! ### Values of one type -/

/-- The value is one that a column of the type holds, for the types of which columns have
statistics. -/
def isOf : Value → DataType → Bool
  | bool _, .scalar .boolean => true
  | int _, .scalar .tinyInt => true
  | int _, .scalar .smallInt => true
  | int _, .scalar .integer => true
  | int _, .scalar .bigInt => true
  | decimal _, .scalar (.decimal _ _) => true
  | string _, .scalar .varchar => true
  | date _, .scalar .date => true
  | timestamp _, .scalar .timestamp => true
  | _, _ => false

variable {type : DataType}

theorem isFloat_of_isOf (h : a.isOf type = true) : a.isFloat = false := by
  cases a with
  | float x => simp [isOf] at h
  | _ => rfl

theorem Le.trans (ha : a.isOf type = true) (hb : b.isOf type = true) (hc : c.isOf type = true)
    (hab : a.Le b) (hbc : b.Le c) : a.Le c :=
  le_trans (isFloat_of_isOf ha) (isFloat_of_isOf hb) (isFloat_of_isOf hc) hab hbc

end Value

end PartitionPruning
