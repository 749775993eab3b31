import PartitionPruning.Numeric.Decimal

/-! The order of decimals, and rounding in it: a decimal rounded to some places never passes
another one rounded to as many. -/

namespace PartitionPruning

/-- A smaller quotient is not rounded to a larger integer. -/
theorem roundDiv_le_roundDiv (tie : Tie) {a b c d : Nat} (hb : 0 < b) (hd : 0 < d)
    (h : a * d ≤ c * b) : roundDiv tie a b ≤ roundDiv tie c d := by
  have hfloor : a / b ≤ c / d := by
    rw [Nat.le_div_iff_mul_le hd]
    refine Nat.le_of_mul_le_mul_right ?_ hb
    calc a / b * d * b = a / b * b * d := Nat.mul_right_comm _ _ _
      _ ≤ a * d := Nat.mul_le_mul_right _ (Nat.div_mul_le_self a b)
      _ ≤ c * b := h
  rcases Nat.lt_or_eq_of_le hfloor with hlt | heq
  · exact Nat.le_trans (roundDiv_le tie a b) (Nat.le_trans hlt (div_le_roundDiv tie c d))
  -- With one integral part, the fractional parts have the order of the quotients.
  have hrest : a % b * d ≤ c % d * b := by
    have ha := Nat.div_add_mod a b
    have hc := Nat.div_add_mod c d
    have hleft : a * d = b * (a / b) * d + a % b * d := by rw [← Nat.add_mul, ha]
    have hright : c * b = d * (c / d) * b + c % d * b := by rw [← Nat.add_mul, hc]
    have hsame : b * (a / b) * d = d * (c / d) * b := by
      rw [heq, Nat.mul_right_comm, Nat.mul_comm b d, Nat.mul_right_comm d]
    omega
  have hup : b * d < 2 * (a % b) * d → d < 2 * (c % d) := fun hlt => by
    refine Nat.lt_of_mul_lt_mul_left (a := b) ?_
    rw [Nat.mul_comm b (2 * (c % d)), Nat.mul_assoc]
    rw [Nat.mul_assoc] at hlt
    omega
  have hhalf : b * d = 2 * (a % b) * d → d ≤ 2 * (c % d) := fun hle => by
    refine Nat.le_of_mul_le_mul_left (c := b) ?_ hb
    rw [Nat.mul_comm b (2 * (c % d)), Nat.mul_assoc]
    rw [Nat.mul_assoc] at hle
    omega
  unfold roundDiv
  dsimp only
  rw [heq]
  split
  · rename_i hround
    rcases hround with hlt | ⟨hle, htie⟩
    · have hlt' := hup (Nat.mul_lt_mul_of_pos_right hlt hd)
      exact Nat.le_of_eq (by rw [if_pos (Or.inl hlt')])
    · rcases Nat.lt_or_eq_of_le (hhalf (by rw [← hle])) with hlt | heq'
      · exact Nat.le_of_eq (by rw [if_pos (Or.inl hlt)])
      · exact Nat.le_of_eq (by rw [if_pos (Or.inr ⟨heq', htie⟩)])
  · split <;> omega

theorem roundDiv_zero (tie : Tie) (den : Nat) (h : 0 < den) : roundDiv tie 0 den = 0 := by
  simpa using roundDiv_mul tie 0 den h

namespace Decimal

/-! ### Order -/

theorem compare_isLE {a b : Decimal} : (a.compare b).isLE = true ↔
    a.coefficient * 10 ^ b.scale ≤ b.coefficient * 10 ^ a.scale := by
  rw [compare, Int.isLE_compare]

theorem ten_pow_pos (n : Nat) : (0 : Int) < 10 ^ n := Int.pow_pos (by decide)

instance : Std.TransCmp Decimal.compare where
  eq_swap := Std.OrientedOrd.eq_swap
  isLE_trans {a b c} hab hbc := by
    rw [compare_isLE] at hab hbc ⊢
    refine Int.le_of_mul_le_mul_right ?_ (ten_pow_pos b.scale)
    calc a.coefficient * 10 ^ c.scale * 10 ^ b.scale
        = a.coefficient * 10 ^ b.scale * 10 ^ c.scale := Int.mul_right_comm _ _ _
      _ ≤ b.coefficient * 10 ^ a.scale * 10 ^ c.scale :=
        Int.mul_le_mul_of_nonneg_right hab (Int.le_of_lt (ten_pow_pos _))
      _ = b.coefficient * 10 ^ c.scale * 10 ^ a.scale := Int.mul_right_comm _ _ _
      _ ≤ c.coefficient * 10 ^ b.scale * 10 ^ a.scale :=
        Int.mul_le_mul_of_nonneg_right hbc (Int.le_of_lt (ten_pow_pos _))
      _ = c.coefficient * 10 ^ a.scale * 10 ^ b.scale := Int.mul_right_comm _ _ _

/-! ### Rounding -/

theorem round_of_scale_le {places : Nat} {d : Decimal} (h : d.scale ≤ places) :
    d.round places = d := dif_neg (Nat.not_lt.mpr h)

theorem scale_round_le (places : Nat) (d : Decimal) : (d.round places).scale ≤ places := by
  unfold round
  split
  · exact Nat.le_refl _
  · omega

/-- A decimal in units of its `places`-th place, rounded half to even. -/
def unitsAt (places : Nat) (d : Decimal) : Int :=
  let units := roundDiv .toEven (d.magnitude * 10 ^ (places - d.scale)) (10 ^ (d.scale - places))
  if d.negative then -(units : Int) else units

/-- A rounded decimal is worth its units. -/
theorem coefficient_round (places : Nat) (d : Decimal) :
    (d.round places).coefficient * 10 ^ places =
      d.unitsAt places * 10 ^ (d.round places).scale := by
  by_cases h : places < d.scale
  · have hzero : places - d.scale = 0 := by omega
    rw [round, dif_pos h]
    congr 1
    simp only [coefficient, unitsAt, shortened, hzero, Nat.pow_zero, Nat.mul_one]
    by_cases hr : roundDiv .toEven d.magnitude (10 ^ (d.scale - places)) = 0
    · cases d.negative <;> simp [hr]
    · cases d.negative <;> simp [hr]
  · have hzero : d.scale - places = 0 := by omega
    rw [round, dif_neg h, unitsAt, hzero, Nat.pow_zero, roundDiv_one, coefficient]
    have hpow : (10 : Int) ^ places = 10 ^ (places - d.scale) * 10 ^ d.scale := by
      rw [← Int.pow_add]
      congr 1
      omega
    have hunits : (d.magnitude : Int) * 10 ^ places =
        ((d.magnitude * 10 ^ (places - d.scale) : Nat) : Int) * 10 ^ d.scale := by
      rw [hpow, ← Int.mul_assoc]
      simp
    split
    · rw [Int.neg_mul, Int.neg_mul, hunits]
    · exact hunits

theorem pow_sub_mul_pow (places scale : Nat) :
    10 ^ (places - scale) * 10 ^ scale = 10 ^ places * 10 ^ (scale - places) := by
  rw [← Nat.pow_add, ← Nat.pow_add]
  congr 1
  omega

theorem units_le_units {m n s t places : Nat} (h : m * 10 ^ t ≤ n * 10 ^ s) :
    roundDiv .toEven (m * 10 ^ (places - s)) (10 ^ (s - places)) ≤
      roundDiv .toEven (n * 10 ^ (places - t)) (10 ^ (t - places)) := by
  have hpos (k : Nat) : 0 < 10 ^ k := Nat.pow_pos (by decide)
  refine roundDiv_le_roundDiv .toEven (hpos _) (hpos _) ?_
  refine Nat.le_of_mul_le_mul_right ?_ (Nat.mul_pos (hpos s) (hpos t))
  calc m * 10 ^ (places - s) * 10 ^ (t - places) * (10 ^ s * 10 ^ t)
      = m * 10 ^ t * (10 ^ (places - s) * 10 ^ s) * 10 ^ (t - places) := by
        simp only [Nat.mul_assoc, Nat.mul_comm, Nat.mul_left_comm]
    _ = m * 10 ^ t * (10 ^ places * 10 ^ (s - places)) * 10 ^ (t - places) := by
        rw [pow_sub_mul_pow]
    _ ≤ n * 10 ^ s * (10 ^ places * 10 ^ (s - places)) * 10 ^ (t - places) :=
        Nat.mul_le_mul_right _ (Nat.mul_le_mul_right _ h)
    _ = n * 10 ^ s * (10 ^ places * 10 ^ (t - places)) * 10 ^ (s - places) := by
        simp only [Nat.mul_assoc, Nat.mul_comm, Nat.mul_left_comm]
    _ = n * 10 ^ s * (10 ^ (places - t) * 10 ^ t) * 10 ^ (s - places) := by
        rw [pow_sub_mul_pow]
    _ = n * 10 ^ (places - t) * 10 ^ (s - places) * (10 ^ s * 10 ^ t) := by
        simp only [Nat.mul_assoc, Nat.mul_comm, Nat.mul_left_comm]

theorem unitsAt_le_unitsAt {a b : Decimal} (places : Nat) (h : (a.compare b).isLE = true) :
    a.unitsAt places ≤ b.unitsAt places := by
  rw [compare_isLE] at h
  simp only [coefficient, unitsAt] at h ⊢
  have hpos (k : Nat) : 0 < 10 ^ k := Nat.pow_pos (by decide)
  revert h
  cases a.negative <;> cases b.negative <;> intro h
  · simp only [Bool.false_eq_true, if_false] at h ⊢
    exact Int.ofNat_le.mpr (units_le_units (by exact_mod_cast h))
  · -- A number that is not negative is at most a negative one only if both are zero.
    simp only [Bool.false_eq_true, if_false, if_true] at h ⊢
    have hsum : a.magnitude * 10 ^ b.scale + b.magnitude * 10 ^ a.scale ≤ 0 := by
      have : (a.magnitude * 10 ^ b.scale + b.magnitude * 10 ^ a.scale : Int) ≤ 0 := by
        rw [Int.neg_mul] at h
        omega
      exact_mod_cast this
    have ha : a.magnitude = 0 :=
      (Nat.mul_eq_zero.mp (by omega)).resolve_right (Nat.ne_of_gt (hpos b.scale))
    have hb : b.magnitude = 0 :=
      (Nat.mul_eq_zero.mp (by omega)).resolve_right (Nat.ne_of_gt (hpos a.scale))
    simp [ha, hb, roundDiv_zero _ _ (hpos _)]
  · simp only [Bool.false_eq_true, if_false, if_true]
    omega
  · simp only [if_true] at h ⊢
    refine Int.neg_le_neg (Int.ofNat_le.mpr (units_le_units ?_))
    rw [Int.neg_mul, Int.neg_mul] at h
    exact_mod_cast Int.le_of_neg_le_neg h

/-- Rounding to a number of places keeps the order. -/
theorem round_isLE {a b : Decimal} (places : Nat) (h : (a.compare b).isLE = true) :
    ((a.round places).compare (b.round places)).isLE = true := by
  rw [compare_isLE]
  refine Int.le_of_mul_le_mul_right ?_ (ten_pow_pos places)
  calc (a.round places).coefficient * 10 ^ (b.round places).scale * 10 ^ places
      = (a.round places).coefficient * 10 ^ places * 10 ^ (b.round places).scale :=
        Int.mul_right_comm _ _ _
    _ = a.unitsAt places * 10 ^ (a.round places).scale * 10 ^ (b.round places).scale := by
        rw [coefficient_round]
    _ ≤ b.unitsAt places * 10 ^ (a.round places).scale * 10 ^ (b.round places).scale :=
        Int.mul_le_mul_of_nonneg_right (Int.mul_le_mul_of_nonneg_right
          (unitsAt_le_unitsAt places h) (Int.le_of_lt (ten_pow_pos _)))
          (Int.le_of_lt (ten_pow_pos _))
    _ = b.unitsAt places * 10 ^ (b.round places).scale * 10 ^ (a.round places).scale :=
        Int.mul_right_comm _ _ _
    _ = (b.round places).coefficient * 10 ^ places * 10 ^ (a.round places).scale := by
        rw [coefficient_round]
    _ = (b.round places).coefficient * 10 ^ (a.round places).scale * 10 ^ places :=
        Int.mul_right_comm _ _ _

end Decimal

end PartitionPruning
