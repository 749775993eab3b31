import PartitionPruning.Proofs.Calendar.Pattern
import PartitionPruning.Proofs.Failure
import PartitionPruning.Proofs.Value.Cast

/-! The text of a value is read back as the value, as any type that can hold it. -/

namespace PartitionPruning

/-- A text with a character that is no digit after its first one is no integer, so dates and
timestamps are not taken for a number of days or of milliseconds. -/
theorem isIntegerText_of_mem {cs : List Char} {c d : Char} (hd : d.isDigit = false) (h : d ∈ cs) :
    isIntegerText (c :: cs) = false := by
  have hall : cs.all Char.isDigit = false := List.all_eq_false.mpr ⟨d, h, by simp [hd]⟩
  unfold isIntegerText
  split
  · rename_i heq
    rw [← (List.cons.inj heq).2, hall, Bool.and_false]
  · rw [List.all_cons, hall, Bool.and_false, Bool.and_false]

theorem isIntegerText_render (d : Date) (rest : List Char) :
    isIntegerText (d.render ++ rest) = false := by
  obtain ⟨c, cs, hyear⟩ := List.exists_cons_of_ne_nil (renderYear_ne_nil d.year)
  rw [Date.render, hyear]
  exact isIntegerText_of_mem (by decide : '-'.isDigit = false) (by simp)

theorem Double.sameNumber_self {x : Double} (h : x ≠ .nan) : x.sameNumber x = true := by
  cases x with
  | nan => contradiction
  | infinite negative => cases negative <;> rfl
  | finite x => simp [sameNumber, compare]

/-- The type can hold the value: its range has the integer, and it has a place for every place of
the decimal. -/
def DataType.Holds (type : DataType) : Value → Prop
  | .null => True
  | .bool _ => type = .scalar .boolean
  | .int n => type.HoldsInt n
  | .float _ => type = .scalar .float ∨ type = .scalar .double
  | .decimal d => ∃ width scale, type = .scalar (.decimal width scale) ∧ d.scale ≤ scale.toNat
  | .string _ => type = .scalar .varchar ∨ type = .untyped
  | .date _ => type = .scalar .date
  | .timestamp _ => type = .scalar .timestamp ∨ type = .scalar .timestampTz

namespace Value

/-- The value is a zero with a sign, which its text keeps and a reader of the text drops. -/
def isNegativeZero : Value → Bool
  | decimal d => d.negative && d.magnitude == 0
  | _ => false

def dropZeroSign : Value → Value
  | decimal d => decimal d.dropZeroSign
  | v => v

variable {v : Value} {type : DataType}

theorem dropZeroSign_eq_self (h : v.isNegativeZero = false) : v.dropZeroSign = v := by
  cases v with
  | decimal d =>
    obtain ⟨negative, magnitude, scale, hmagnitude, hscale⟩ := d
    simp only [isNegativeZero, Bool.and_eq_false_imp, beq_eq_false_iff_ne] at h
    simpa [dropZeroSign, Decimal.dropZeroSign] using h
  | _ => rfl

/-- Decimals are equal by their numbers, so a zero is equal to itself without its sign. -/
theorem sameValue_dropZeroSign (h : v ≠ float .nan) : v.dropZeroSign.sameValue v = true := by
  cases v with
  | decimal d =>
    have hsame : d.dropZeroSign.compare d = .eq := by
      rw [Decimal.compare, d.coefficient_dropZeroSign]
      exact Std.ReflOrd.compare_self
    simp [dropZeroSign, sameValue, Decimal.sameNumber, hsame]
  | float x => exact Double.sameNumber_self fun hx => h (congrArg float hx)
  | _ => simp [dropZeroSign, sameValue]

/-! ### Texts of values -/

theorem parse_boolText (b : Bool) : parse (bool b).render (.scalar .boolean) = .ok (bool b) := by
  cases b <;> rfl

theorem parse_intText {n : Int64} (h : type.HoldsInt n) :
    parse (intText n.toInt) type = .ok (int n) := by
  rw [← cast_int h.isOf, ← toOption_eq_some]
  exact cast_of_holdsInt h

theorem parse_decimalText {d : Decimal} {width scale : UInt8} (h : d.scale ≤ scale.toNat) :
    parse d.text (.scalar (.decimal width scale)) = .ok (decimal d.dropZeroSign) := by
  have hscale : d.dropZeroSign.scale ≤ scale.toNat := h
  rw [← toOption_eq_some, toOption_parse_decimal, d.read?_text, Option.map_some,
    Decimal.round_of_scale_le hscale]

theorem parseDate?_render (d : Date) : parseDate? (trimmed (date d).render) = some (date d) := by
  have hinteger : isIntegerText d.render = false := by
    simpa using isIntegerText_render d []
  rw [render, trimmed, String.toList_ofList, d.trimBlanks_render, parseDate?, String.toList_ofList,
    hinteger, readDate?_render]
  rfl

theorem parseTimestamp?_render (t : Timestamp) :
    parseTimestamp? (trimmed (timestamp t).render) = some (timestamp t) := by
  have hinteger : isIntegerText t.render = false := isIntegerText_render t.date _
  rw [render, trimmed, String.toList_ofList, t.trimBlanks_render, parseTimestamp?,
    String.toList_ofList, hinteger, readTimestamp?_render]
  rfl

theorem parse_of_holds (h : type.Holds v) (hnull : v ≠ null) (hfloat : v.isFloat = false) :
    parse v.render type = .ok v.dropZeroSign := by
  cases v with
  | null => contradiction
  | bool b =>
    obtain rfl : type = .scalar .boolean := h
    exact parse_boolText b
  | int n => exact parse_intText h
  | float x => contradiction
  | decimal d =>
    obtain ⟨width, scale, rfl, hscale⟩ := h
    exact parse_decimalText hscale
  | string s =>
    rcases h with rfl | rfl
    all_goals rfl
  | date d =>
    obtain rfl : type = .scalar .date := h
    exact toOption_eq_some.mp (toOption_parse_date.trans (parseDate?_render d))
  | timestamp t =>
    rcases h with rfl | rfl
    · exact toOption_eq_some.mp (toOption_parse_timestamp.trans (parseTimestamp?_render t))
    · exact toOption_eq_some.mp (toOption_parse_timestampTz.trans (parseTimestamp?_render t))

/-- A value other than a null and a float is read back from its text, by every type that can hold
it. Only the sign of a zero is lost. -/
theorem parse_render (h : type.Holds v) (hnull : v ≠ null) (hfloat : v.isFloat = false) :
    ∃ w, parse v.render type = .ok w ∧ w.sameValue v = true ∧
      (v.isNegativeZero = false → w = v) := by
  refine ⟨_, parse_of_holds h hnull hfloat, sameValue_dropZeroSign fun hv => ?_,
    dropZeroSign_eq_self⟩
  rw [hv] at hfloat
  contradiction

/-- Half a second into a leap second, at the end of the year before the year 0. -/
def leapSecond : Timestamp :=
  ⟨⟨-1, 12, 31, by decide, by decide, by decide⟩,
    ⟨23, 59, 60, 500000000, by decide, by decide, by decide, by decide⟩⟩

theorem parse_render_leapSecond :
    (DataType.scalar .timestampTz).Holds (timestamp leapSecond) ∧
      parse (timestamp leapSecond).render (.scalar .timestampTz) = .ok (timestamp leapSecond) := by
  have hholds : (DataType.scalar .timestampTz).Holds (timestamp leapSecond) := Or.inr rfl
  obtain ⟨w, hparse, -, heq⟩ := parse_render hholds Value.noConfusion rfl
  obtain rfl := heq rfl
  exact ⟨hholds, hparse⟩

end Value

end PartitionPruning
