import PartitionPruning.Proofs.Value.ReadBack

/-! What a cast to a type gives, the type can hold; and what a type can hold, a cast to it leaves as
it is. So a second cast to one type changes nothing. -/

namespace PartitionPruning

namespace Value

variable {v w : Value} {s : String} {type : DataType}

/-! ### Values that have been read or cast -/

theorem holds_of_parseInt? {bits : Nat} (hbits : type.bits? = some bits)
    (h : parseInt? bits s = some v) : type.Holds v := by
  obtain ⟨n, -, h⟩ := Option.bind_eq_some_iff.mp h
  split at h
  · rename_i hrange
    obtain rfl := Option.some.inj h
    exact ⟨bits, hbits, hrange⟩
  · contradiction

theorem toOption_parse_of_float (htype : type = .scalar .float ∨ type = .scalar .double) :
    (parse s type).toOption = (Double.read? (trimmed s)).map float := by
  rcases htype with rfl | rfl
  all_goals
    unfold parse
    cases Double.read? (trimmed s) <;> rfl

theorem holds_of_parse_of_float (htype : type = .scalar .float ∨ type = .scalar .double)
    (h : (parse s type).toOption = some w) : type.Holds w := by
  rw [toOption_parse_of_float htype] at h
  obtain ⟨x, -, rfl⟩ := Option.map_eq_some_iff.mp h
  exact htype

theorem holds_of_parse (h : parse s type = .ok w) : type.Holds w := by
  have htext := toOption_eq_some.mpr h
  have integer {bits : Nat} (hbits : type.bits? = some bits) : type.Holds w :=
    holds_of_parseInt? hbits ((toOption_parse_of_bits? hbits).symm.trans htext)
  cases type with
  | scalar type =>
    cases type with
    | null =>
      obtain rfl := Except.ok.inj h
      exact Or.inr rfl
    | varchar =>
      obtain rfl := Except.ok.inj h
      exact Or.inl rfl
    | boolean =>
      obtain ⟨b, rfl⟩ := exists_of_parseBool? (toOption_parse_boolean.symm.trans htext)
      rfl
    | tinyInt | smallInt | integer | bigInt => exact integer rfl
    | float => exact holds_of_parse_of_float (Or.inl rfl) htext
    | double => exact holds_of_parse_of_float (Or.inr rfl) htext
    | decimal width scale =>
      obtain ⟨d, -, rfl⟩ := Option.map_eq_some_iff.mp (toOption_parse_decimal.symm.trans htext)
      exact ⟨width, scale, rfl, d.scale_round_le _⟩
    | date =>
      obtain ⟨d, rfl⟩ := exists_of_parseDate? (toOption_parse_date.symm.trans htext)
      rfl
    | timestamp =>
      obtain ⟨t, rfl⟩ := exists_of_parseTimestamp? (toOption_parse_timestamp.symm.trans htext)
      exact Or.inl rfl
    | timestampTz =>
      obtain ⟨t, rfl⟩ := exists_of_parseTimestamp? (toOption_parse_timestampTz.symm.trans htext)
      exact Or.inr rfl
    | bit | blob | time | interval => contradiction
  | list | map | struct => contradiction

theorem holds_of_cast (h : v.cast type = .ok w) : type.Holds w := by
  unfold cast at h
  split at h
  case h_14 => exact holds_of_parse h
  all_goals
    obtain rfl := Except.ok.inj h
    simp [DataType.Holds]

theorem cast_of_holds (h : type.Holds w) : w.cast type = .ok w.dropZeroSign := by
  cases w with
  | null => rfl
  | bool b =>
    obtain rfl : type = .scalar .boolean := h
    rfl
  | int n =>
    rw [cast_int (DataType.HoldsInt.isOf h)]
    exact parse_intText h
  | float x =>
    rcases h with rfl | rfl
    all_goals rfl
  | decimal d =>
    obtain ⟨width, scale, rfl, hscale⟩ := h
    rw [cast_decimal]
    exact parse_decimalText hscale
  | string s =>
    rcases h with rfl | rfl
    all_goals rfl
  | date d =>
    obtain rfl : type = .scalar .date := h
    rfl
  | timestamp t =>
    rcases h with rfl | rfl
    all_goals rfl

/-- What is left of a number below a half of the smallest decimal, under its sign. -/
def negativeZero : Decimal := ⟨true, 0, 28, by decide, by decide⟩

example : (decimal negativeZero).cast (.scalar (.decimal 38 28)) =
    .ok (decimal { negativeZero with negative := false }) := rfl

/-- A second cast to a type gives what the first one gave, not-a-number too. Only a zero may lose
its sign, and then it is still equal to what it was. -/
theorem cast_cast (h : v.cast type = .ok w) :
    ∃ u, w.cast type = .ok u ∧ (w = float .nan ∨ u.sameValue w = true) ∧
      (w.isNegativeZero = false → u = w) :=
  ⟨_, cast_of_holds (holds_of_cast h), Decidable.or_iff_not_imp_left.mpr sameValue_dropZeroSign,
    dropZeroSign_eq_self⟩

/-- `2.3456` -/
def roundedToEven : Decimal := ⟨false, 23456, 4, by decide, by decide⟩

theorem cast_cast_rounded :
    (string "2.34565").cast (.scalar (.decimal 18 4)) = .ok (decimal roundedToEven) ∧
      (decimal roundedToEven).cast (.scalar (.decimal 18 4)) =
        .ok (decimal roundedToEven) := by
  have hcast : (string "2.34565").cast (.scalar (.decimal 18 4)) =
      .ok (decimal roundedToEven) := rfl
  obtain ⟨u, hagain, -, heq⟩ := cast_cast hcast
  obtain rfl := heq rfl
  exact ⟨hcast, hagain⟩

end Value

end PartitionPruning
