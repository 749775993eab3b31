import PartitionPruning.Proofs.Numeric.DecimalText
import PartitionPruning.Proofs.Value.Order

/-! Casts to the type of a column keep the order of its values. A text that is compared with a value
of the column is cast to what it was compared as. -/

namespace PartitionPruning

/-- The number of bits of an integer type. -/
def DataType.bits? : DataType → Option Nat
  | .scalar .tinyInt => some 8
  | .scalar .smallInt => some 16
  | .scalar .integer => some 32
  | .scalar .bigInt => some 64
  | _ => none

/-- The type is an integer type, and the number is in its range. -/
def DataType.HoldsInt (type : DataType) (n : Int64) : Prop :=
  ∃ bits, type.bits? = some bits ∧ -2 ^ (bits - 1) ≤ n.toInt ∧ n.toInt < 2 ^ (bits - 1)

theorem Value.isOf_int_iff {type : DataType} {n : Int64} :
    (int n).isOf type = true ↔ ∃ bits, type.bits? = some bits := by
  unfold isOf DataType.bits?
  split <;> split <;> simp_all

theorem DataType.HoldsInt.isOf {type : DataType} {n : Int64} (h : type.HoldsInt n) :
    (Value.int n).isOf type = true := by
  obtain ⟨bits, hbits, -⟩ := h
  exact Value.isOf_int_iff.mpr ⟨bits, hbits⟩

namespace Value

/-- The second value is what a cast to the type makes of the first one. A decimal is rounded, and
goes over its text, which has no sign for a zero. -/
def CastsTo (x : Value) (type : DataType) (y : Value) : Prop :=
  match x, type with
  | decimal d, .scalar (.decimal _ scale) =>
    ∃ e : Decimal, e.coefficient = d.coefficient ∧ e.scale = d.scale ∧
      y = decimal (e.round scale.toNat)
  | x, _ => y = x

variable {type : DataType} {x y v w : Value}

theorem castsTo_iff_eq (htype : ∀ width scale, type ≠ .scalar (.decimal width scale)) :
    x.CastsTo type y ↔ y = x := by
  unfold CastsTo
  split
  · exact absurd rfl (htype _ _)
  · exact Iff.rfl

/-- What a value of a type has been cast to is again of the type. -/
theorem CastsTo.isOf (hx : x.isOf type = true) (h : x.CastsTo type y) : y.isOf type = true := by
  unfold CastsTo at h
  split at h
  · obtain ⟨e, -, -, rfl⟩ := h
    rfl
  · rwa [h]

/-- Casts to one type do not change the order of two values of the type. -/
theorem CastsTo.le (hx : x.isOf type = true) (hy : y.isOf type = true) (hv : x.CastsTo type v)
    (hw : y.CastsTo type w) (h : x.Le y) : v.Le w := by
  by_cases hdecimal : ∃ width scale, type = .scalar (.decimal width scale)
  · obtain ⟨width, scale, rfl⟩ := hdecimal
    cases x with
    | decimal d =>
      cases y with
      | decimal e =>
        obtain ⟨d', hcoefficient, hscale, rfl⟩ := hv
        obtain ⟨e', hcoefficient', hscale', rfl⟩ := hw
        obtain ⟨o, ho, hle⟩ := h
        refine ⟨_, rfl, Decimal.round_isLE scale.toNat ?_⟩
        rw [Decimal.compare_isLE, hcoefficient, hscale, hcoefficient', hscale',
          ← Decimal.compare_isLE]
        rwa [Option.some.inj ho]
      | _ => contradiction
    | _ => contradiction
  · rw [castsTo_iff_eq fun width scale h => hdecimal ⟨width, scale, h⟩] at hv hw
    rwa [hv, hw]

/-! ### Reading texts -/

variable {s : String}

theorem toOption_parse_boolean :
    (parse s (.scalar .boolean)).toOption = parseBool? (trimmed s) := by
  unfold parse
  cases parseBool? (trimmed s) <;> rfl

theorem toOption_parse_date : (parse s (.scalar .date)).toOption = parseDate? (trimmed s) := by
  unfold parse
  cases parseDate? (trimmed s) <;> rfl

theorem toOption_parse_timestamp :
    (parse s (.scalar .timestamp)).toOption = parseTimestamp? (trimmed s) := by
  unfold parse
  cases parseTimestamp? (trimmed s) <;> rfl

theorem toOption_parse_timestampTz :
    (parse s (.scalar .timestampTz)).toOption = parseTimestamp? (trimmed s) := by
  unfold parse
  cases parseTimestamp? (trimmed s) <;> rfl

theorem toOption_parse_decimal {width scale : UInt8} :
    (parse s (.scalar (.decimal width scale))).toOption =
      (Decimal.read? (trimmed s)).map fun d => decimal (d.round scale.toNat) := by
  unfold parse
  cases Decimal.read? (trimmed s) <;> rfl

theorem toOption_parse_of_bits? {bits : Nat} (h : type.bits? = some bits) :
    (parse s type).toOption = parseInt? bits (trimmed s) := by
  unfold DataType.bits? at h
  split at h
  case h_5 => contradiction
  all_goals
    obtain rfl := Option.some.inj h
    unfold parse
    dsimp only
    split <;> rename_i hread <;> rw [hread] <;> rfl

theorem parseInt?_eq_some {bits : Nat} (h : parseInt? bits s = some v) :
    ∃ n, readInt64? s = some n ∧ v = int n := by
  obtain ⟨n, hn, h⟩ := Option.bind_eq_some_iff.mp h
  split at h
  · exact ⟨n, hn, (Option.some.inj h).symm⟩
  · contradiction

/-! ### Casts -/

/-- Integers and decimals are cast over their texts. -/
theorem cast_int {n : Int64} (h : (int n).isOf type = true) :
    (int n).cast type = parse (intText n.toInt) type := by
  unfold isOf at h
  split at h
  case h_2 | h_3 | h_4 | h_5 => rfl
  all_goals simp_all

theorem cast_decimal (d : Decimal) (type : DataType) :
    (decimal d).cast type = parse d.text type := rfl

/-- A cast to the type of a value makes of it what `CastsTo` says. -/
theorem castsTo_of_cast (hx : x.isOf type = true) (h : (x.cast type).toOption = some y) :
    x.CastsTo type y := by
  have integer {n : Int64} (hn : (int n).isOf type = true)
      (h : ((int n).cast type).toOption = some y) : y = int n := by
    obtain ⟨bits, hbits⟩ := isOf_int_iff.mp hn
    rw [cast_int hn, toOption_parse_of_bits? hbits] at h
    obtain ⟨m, hm, rfl⟩ := parseInt?_eq_some h
    rw [readInt64?_intText, Option.some.injEq] at hm
    rw [hm]
  revert hx
  unfold isOf
  split
  case h_6 d width scale =>
    intro _
    have hcast : ((decimal d).cast (.scalar (.decimal width scale))).toOption =
        some (decimal (d.dropZeroSign.round scale.toNat)) := by
      rw [cast_decimal, toOption_parse_decimal, d.read?_text, Option.map_some]
    exact ⟨_, d.coefficient_dropZeroSign, rfl, Option.some.inj (h.symm.trans hcast)⟩
  case h_2 | h_3 | h_4 | h_5 => exact fun _ => integer rfl h
  case h_10 =>
    intro hfalse
    contradiction
  all_goals exact fun _ => (Option.some.inj h).symm

/-- An integer in the range of a type is cast to it as it is. -/
theorem cast_of_holdsInt {n : Int64} (h : type.HoldsInt n) :
    ((int n).cast type).toOption = some (int n) := by
  have hof := h.isOf
  obtain ⟨bits, hbits, hrange⟩ := h
  rw [cast_int hof, toOption_parse_of_bits? hbits, parseInt?, readInt64?_intText,
    Option.bind_some, if_pos hrange]

theorem exists_of_parseBool? (h : parseBool? s = some v) : ∃ b, v = bool b := by
  unfold parseBool? at h
  dsimp only at h
  split at h
  · exact ⟨true, (Option.some.inj h).symm⟩
  · split at h
    · exact ⟨false, (Option.some.inj h).symm⟩
    · contradiction

theorem exists_of_parseDate? (h : parseDate? s = some v) : ∃ d, v = date d := by
  obtain ⟨d, -, rfl⟩ := Option.map_eq_some_iff.mp h
  exact ⟨d, rfl⟩

theorem exists_of_parseTimestamp? (h : parseTimestamp? s = some v) : ∃ t, v = timestamp t := by
  obtain ⟨t, -, rfl⟩ := Option.map_eq_some_iff.mp h
  exact ⟨t, rfl⟩

/-- A text that is compared with a value of a type is cast to the type as what it is compared as. -/
theorem castsTo_of_text {r : Value} (hr : r.isOf type = true)
    (hx : (string s).coerceLike r = some x) :
    x.isOf type = true ∧ (((string s).cast type).toOption = some y → x.CastsTo type y) := by
  -- Where cast and comparison read the text alike, nothing changes.
  have alike (hof : x.isOf type = true)
      (htype : ∀ width scale, type ≠ .scalar (.decimal width scale))
      (hcast : ((string s).cast type).toOption = some x) :
      x.isOf type = true ∧ (((string s).cast type).toOption = some y → x.CastsTo type y) :=
    ⟨hof, fun h => (castsTo_iff_eq htype).mpr (Option.some.inj (h.symm.trans hcast))⟩
  have integer (hn : ∀ n, (int n).isOf type = true)
      (htype : ∀ width scale, type ≠ .scalar (.decimal width scale))
      (hx : parseInt? 64 (trimmed s) = some x)
      (hcast : (string s).cast type = parse s type) :
      x.isOf type = true ∧ (((string s).cast type).toOption = some y → x.CastsTo type y) := by
    obtain ⟨m, hm, rfl⟩ := parseInt?_eq_some hx
    refine ⟨hn m, fun h => (castsTo_iff_eq htype).mpr ?_⟩
    obtain ⟨bits, hbits⟩ := isOf_int_iff.mp (hn m)
    rw [hcast, toOption_parse_of_bits? hbits] at h
    obtain ⟨k, hk, rfl⟩ := parseInt?_eq_some h
    rw [Option.some.inj (hk.symm.trans hm)]
  revert hr
  unfold isOf
  split <;> intro hr
  case h_1 =>
    have hcast : (string s).cast (.scalar .boolean) = parse s (.scalar .boolean) := rfl
    have hx : parseBool? (trimmed s) = some x := hx
    obtain ⟨b, rfl⟩ := exists_of_parseBool? hx
    exact alike rfl (by simp) (by rw [hcast, toOption_parse_boolean, hx])
  case h_2 | h_3 | h_4 | h_5 => exact integer (fun _ => rfl) (by simp) hx rfl
  case h_6 d width scale =>
    have hx : (Decimal.read? (trimmed s)).map decimal = some x := hx
    obtain ⟨e, he, rfl⟩ := Option.map_eq_some_iff.mp hx
    refine ⟨rfl, fun h => ?_⟩
    have hcast : ((string s).cast (.scalar (.decimal width scale))).toOption =
        some (decimal (e.round scale.toNat)) := by
      show (parse s (.scalar (.decimal width scale))).toOption = _
      rw [toOption_parse_decimal, he, Option.map_some]
    exact ⟨e, rfl, rfl, Option.some.inj (h.symm.trans hcast)⟩
  case h_7 =>
    obtain rfl : string s = x := Option.some.inj hx
    exact alike rfl (by simp) rfl
  case h_8 =>
    have hcast : (string s).cast (.scalar .date) = parse s (.scalar .date) := rfl
    have hx : parseDate? (trimmed s) = some x := hx
    obtain ⟨d, rfl⟩ := exists_of_parseDate? hx
    exact alike rfl (by simp) (by rw [hcast, toOption_parse_date, hx])
  case h_9 =>
    have hcast : (string s).cast (.scalar .timestamp) = parse s (.scalar .timestamp) := rfl
    have hx : parseTimestamp? (trimmed s) = some x := hx
    obtain ⟨t, rfl⟩ := exists_of_parseTimestamp? hx
    exact alike rfl (by simp) (by rw [hcast, toOption_parse_timestamp, hx])
  case h_10 => contradiction

theorem isOf_string (h : (string s).isOf type = true) : type = .scalar .varchar := by
  revert h
  unfold isOf
  split <;> simp_all

/-- A value of a type is compared with others of the type, and with texts, as it is. -/
theorem coerceLike_of_isOf {a b : Value} (ha : a.isOf type = true)
    (hb : b.isOf type = true ∨ ∃ s, b = string s) : a.coerceLike b = some a := by
  cases a with
  | string s =>
    obtain ⟨t, rfl⟩ : ∃ t, b = string t := by
      rcases hb with hb | hb
      · rw [isOf_string ha] at hb
        cases b with
        | string t => exact ⟨t, rfl⟩
        | _ => contradiction
      · exact hb
    rfl
  | _ => cases b <;> rfl

/-- A constant of a type, or a text, is cast to the type as what it is compared as. -/
theorem castsTo_of_coerceLike {l r : Value} (hr : r.isOf type = true)
    (hl : l.isOf type = true ∨ ∃ s, l = string s) (hx : l.coerceLike r = some x) :
    x.isOf type = true ∧ ((l.cast type).toOption = some y → x.CastsTo type y) := by
  rcases hl with hl | ⟨s, rfl⟩
  · obtain rfl : l = x := Option.some.inj ((coerceLike_of_isOf hl (Or.inl hr)).symm.trans hx)
    exact ⟨hl, castsTo_of_cast hl⟩
  · exact castsTo_of_text hr hx

end Value

end PartitionPruning
