import Mathlib.Algebra.Order.Ring.Unbundled.Rat
import PartitionPruning.Proofs.Value.Order

/-! Values other than floats have an order within their kind and with no other value, and there it
is a total preorder: that of the exact numbers on integers and decimals together. -/

namespace PartitionPruning

namespace Decimal

/-- The number that a decimal stands for. -/
def toRat (d : Decimal) : Rat := mkRat d.coefficient (10 ^ d.scale)

theorem compare_isLE_iff_toRat {d e : Decimal} :
    (d.compare e).isLE = true ↔ d.toRat ≤ e.toRat := by
  have hpos (n : Nat) : (0 : Int) < ((10 ^ n : Nat) : Int) := by
    exact_mod_cast Nat.pow_pos (by decide)
  rw [compare_isLE, toRat, toRat, Rat.mkRat_eq_divInt, Rat.mkRat_eq_divInt,
    Rat.divInt_le_divInt (hpos _) (hpos _)]
  simp only [Int.natCast_pow, Int.cast_ofNat_Int]

theorem toRat_ofInt64 (n : Int64) : (ofInt64 n).toRat = n.toInt := by
  rw [toRat, coefficient_ofInt64]
  exact Rat.mkRat_one n.toInt

end Decimal

namespace Value

/-- The kind of a value. Null has none. -/
def kind? : Value → Option ValueKind
  | null => none
  | bool _ => some .truth
  | int _ | float _ | decimal _ => some .number
  | string _ => some .text
  | date _ | timestamp _ => some .moment

/-- The number that an integer or a decimal stands for. -/
def number? : Value → Option Rat
  | int n => some n.toInt
  | decimal d => some d.toRat
  | _ => none

variable {a b c : Value} {kind : ValueKind} {x : kind.Key}

theorem ComparedAs.kind?_eq (h : a.ComparedAs kind x) : a.kind? = some kind := by
  cases h <;> rfl

theorem exists_comparedAs_of_kind? (ha : a.isFloat = false) (h : a.kind? = some kind) :
    ∃ x : kind.Key, a.ComparedAs kind x := by
  rcases null_or_comparedAs ha with rfl | ⟨other, x, hx⟩
  · simp [kind?] at h
  · obtain rfl := Option.some.inj (hx.kind?_eq.symm.trans h)
    exact ⟨x, hx⟩

theorem exists_comparedAs_of_number? {r : Rat} (h : a.number? = some r) :
    ∃ d : Decimal, a.ComparedAs .number d ∧ d.toRat = r := by
  cases a with
  | int n => exact ⟨_, .int n, (Decimal.toRat_ofInt64 n).trans (Option.some.inj h)⟩
  | decimal d => exact ⟨_, .decimal d, Option.some.inj h⟩
  | _ => simp [number?] at h

theorem isSome_compare_iff (ha : a.isFloat = false) (hb : b.isFloat = false) :
    (a.compare b).isSome = true ↔
      ∃ kind, a.kind? = some kind ∧ b.kind? = some kind := by
  constructor
  · intro h
    obtain ⟨o, ho⟩ := Option.isSome_iff_exists.mp h
    obtain ⟨kind, x, y, hx, hy, -⟩ := exists_comparedAs ha hb ho
    exact ⟨kind, hx.kind?_eq, hy.kind?_eq⟩
  · rintro ⟨kind, hka, hkb⟩
    obtain ⟨x, hx⟩ := exists_comparedAs_of_kind? ha hka
    obtain ⟨y, hy⟩ := exists_comparedAs_of_kind? hb hkb
    rw [hx.compare_eq hy, Option.isSome_some]

theorem compare_self (ha : a.isFloat = false) (hnull : a ≠ null) :
    a.compare a = some .eq := by
  obtain ⟨kind, x, hx⟩ := (null_or_comparedAs ha).resolve_left hnull
  rw [hx.compare_eq hx]
  exact congrArg some Std.ReflCmp.compare_self

/-- Integers and decimals have the order of the numbers they stand for. -/
theorem le_iff_of_number? {r s : Rat} (hr : a.number? = some r) (hs : b.number? = some s) :
    a.Le b ↔ r ≤ s := by
  obtain ⟨d, hd, rfl⟩ := exists_comparedAs_of_number? hr
  obtain ⟨e, he, rfl⟩ := exists_comparedAs_of_number? hs
  rw [Le, hd.compare_eq he, ← Decimal.compare_isLE_iff_toRat]
  simp [ValueKind.compare]

/-- On values that are no floats, the order is a total preorder within each kind of values, and
there is none between two kinds. -/
theorem compare_preorder (ha : a.isFloat = false) (hb : b.isFloat = false)
    (hc : c.isFloat = false) :
    ((a.compare b).isSome = true ↔ ∃ kind, a.kind? = some kind ∧ b.kind? = some kind) ∧
      (a ≠ null → a.compare a = some .eq) ∧
      b.compare a = (a.compare b).map .swap ∧
      (a.Le b → b.Le c → a.Le c) ∧
      ∀ r s, a.number? = some r → b.number? = some s → (a.Le b ↔ r ≤ s) :=
  ⟨isSome_compare_iff ha hb, compare_self ha, compare_swap a b, le_trans ha hb hc,
    fun _ _ => le_iff_of_number?⟩

/-- `1.000` -/
def thousandThousandths : Decimal := ⟨false, 1000, 3, by decide, by decide⟩

/-- `1.5` -/
def fifteenTenths : Decimal := ⟨false, 15, 1, by decide, by decide⟩

/-- An integer, a decimal that is equal to it, and a larger one with fewer places. -/
theorem compare_preorder_mixed :
    ((int 1).isFloat = false ∧ (decimal thousandThousandths).isFloat = false ∧
      (decimal fifteenTenths).isFloat = false) ∧
    (int 1).compare (decimal thousandThousandths) = some .eq ∧
    (decimal thousandThousandths).compare (int 1) = some .eq ∧
    (int 1).Le (decimal fifteenTenths) := by
  obtain ⟨-, -, hswap, htrans, -⟩ :=
    compare_preorder (a := int 1) (b := decimal thousandThousandths) (c := decimal fifteenTenths)
      rfl rfl rfl
  have heq : (int 1).compare (decimal thousandThousandths) = some .eq := by decide
  have hle : (decimal thousandThousandths).Le (decimal fifteenTenths) := ⟨.lt, by decide, rfl⟩
  exact ⟨⟨rfl, rfl, rfl⟩, heq, by rw [hswap, heq]; rfl, htrans ⟨.eq, heq, rfl⟩ hle⟩

end Value

end PartitionPruning
