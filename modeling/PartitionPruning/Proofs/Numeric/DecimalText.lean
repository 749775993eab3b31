import PartitionPruning.Numeric.DecimalText
import PartitionPruning.Proofs.Text.Digits

/-! Reading back the text of a decimal. It has the places and the value of the decimal; only the
sign of a zero is lost. -/

namespace PartitionPruning

theorem digit?_of_isDigit {c : Char} (h : c.isDigit = true) : digit? c = some (c.toNat - 48) := by
  rw [digit?, if_pos h]

theorem le_readDigits (start : Nat) (cs : List Char) : start ≤ readDigits start cs := by
  induction cs generalizing start with
  | nil => exact Nat.le_refl _
  | cons c cs ih => exact Nat.le_trans (by omega) (ih (10 * start + (c.toNat - 48)))

namespace Decimal

/-- The decimal, without its sign if it is a zero. -/
def dropZeroSign (d : Decimal) : Decimal :=
  { d with negative := d.negative && decide (d.magnitude ≠ 0) }

theorem coefficient_dropZeroSign (d : Decimal) : d.dropZeroSign.coefficient = d.coefficient := by
  by_cases hzero : d.magnitude = 0 <;> simp [coefficient, dropZeroSign, hzero]

/-- A coefficient has no sign of its own if it is zero. -/
theorem of?_coefficient (d : Decimal) : of? d.coefficient d.scale = some d.dropZeroSign := by
  have hmagnitude : d.coefficient.natAbs = d.magnitude := by
    rw [coefficient]
    split <;> omega
  have hnegative : decide (d.coefficient < 0) = (d.negative && decide (d.magnitude ≠ 0)) := by
    rw [coefficient]
    cases d.negative <;> grind
  rw [of?, dif_pos ⟨hmagnitude ▸ d.magnitude_lt, d.scale_le⟩]
  simp only [hmagnitude, hnegative, dropZeroSign]

/-! ### The scan -/

/-- Digits before the point, as long as there is room for them. -/
theorem read_whole {started : Bool} {start : Nat} {cs rest : List Char}
    (hcs : ∀ c ∈ cs, c.isDigit = true) (hroom : readDigits start cs < coefficientBound) :
    Scan.read ⟨false, started, start, 0⟩ (cs ++ rest) =
      Scan.read ⟨false, started || !cs.isEmpty, readDigits start cs, 0⟩ rest := by
  induction cs generalizing started start with
  | nil => simp [readDigits]
  | cons c cs ih =>
    have hnext : 10 * start + (c.toNat - 48) < coefficientBound :=
      Nat.lt_of_le_of_lt (le_readDigits _ cs) hroom
    rw [List.cons_append, Scan.read, digit?_of_isDigit (hcs c List.mem_cons_self)]
    simp only [Bool.false_and, Bool.false_eq_true, if_false, if_neg (Nat.not_le.mpr hnext)]
    rw [ih (fun d hd => hcs d (List.mem_cons_of_mem _ hd)) hroom]
    simp [readDigits]

theorem read_fraction {start scale : Nat} {cs : List Char} (hcs : ∀ c ∈ cs, c.isDigit = true)
    (hroom : readDigits start cs < coefficientBound) (hscale : scale + cs.length ≤ maxScale) :
    Scan.read ⟨true, true, start, scale⟩ cs = some (readDigits start cs, scale + cs.length) := by
  induction cs generalizing start scale with
  | nil => simp [Scan.read, readDigits]
  | cons c cs ih =>
    have hnext : 10 * start + (c.toNat - 48) < coefficientBound :=
      Nat.lt_of_le_of_lt (le_readDigits _ cs) hroom
    rw [List.length_cons] at hscale
    have hfits : ¬(scale = maxScale ∨ coefficientBound ≤ 10 * start + (c.toNat - 48)) := by omega
    rw [Scan.read, digit?_of_isDigit (hcs c List.mem_cons_self)]
    simp only [Bool.true_and, decide_eq_true_eq, if_neg hfits, if_neg (Nat.not_le.mpr hnext),
      if_true]
    rw [ih (fun d hd => hcs d (List.mem_cons_of_mem _ hd)) hroom (by omega), List.length_cons]
    simp only [readDigits, List.foldl_cons, Option.some.injEq, Prod.mk.injEq, true_and]
    omega

/-! ### Texts of decimals -/

def unsignedText (d : Decimal) : List Char :=
  let digits := paddedDigits (d.scale + 1) d.magnitude
  let whole := digits.length - d.scale
  if d.scale = 0 then digits else digits.take whole ++ '.' :: digits.drop whole

theorem render_eq (d : Decimal) :
    d.render = if d.negative then '-' :: d.unsignedText else d.unsignedText := rfl

/-- Digits with a point among them unless the scale is zero. -/
theorem exists_unsignedText (d : Decimal) : ∃ whole fraction : List Char, whole ≠ [] ∧
    whole ++ fraction = paddedDigits (d.scale + 1) d.magnitude ∧ fraction.length = d.scale ∧
      d.unsignedText = if d.scale = 0 then whole else whole ++ '.' :: fraction := by
  have hlen := le_length_paddedDigits (d.scale + 1) d.magnitude
  rw [unsignedText]
  generalize paddedDigits (d.scale + 1) d.magnitude = digits at hlen ⊢
  refine ⟨digits.take (digits.length - d.scale), digits.drop (digits.length - d.scale), ?_,
    List.take_append_drop _ _, ?_, ?_⟩
  · intro h
    rcases List.take_eq_nil_iff.mp h with h | h
    · omega
    · rw [h, List.length_nil] at hlen
      omega
  · rw [List.length_drop]
    omega
  · by_cases h : d.scale = 0
    · simp [h]
    · simp [h]

theorem read_unsignedText (d : Decimal) :
    Scan.read ⟨false, false, 0, 0⟩ d.unsignedText = some (d.magnitude, d.scale) := by
  obtain ⟨whole, fraction, hne, hdigits, hlen, htext⟩ := d.exists_unsignedText
  have hdigit : ∀ c ∈ whole ++ fraction, c.isDigit = true := fun c hc =>
    isDigit_of_mem_paddedDigits (hdigits ▸ hc)
  have hvalue : readDigits 0 (whole ++ fraction) = d.magnitude := by
    rw [hdigits, readDigits_paddedDigits]
  have hlt := d.magnitude_lt
  have hwhole : readDigits 0 whole < coefficientBound := by
    refine Nat.lt_of_le_of_lt ?_ hlt
    rw [← hvalue, readDigits_append]
    exact le_readDigits _ _
  have hstarted : (false || !whole.isEmpty) = true := by simpa using hne
  rw [htext]
  by_cases hscale : d.scale = 0
  · rw [List.length_eq_zero_iff.mp (hlen.trans hscale), List.append_nil] at hvalue
    rw [if_pos hscale, ← List.append_nil whole,
      read_whole (fun c hc => hdigit c (List.mem_append_left _ hc)) hwhole, hstarted, Scan.read,
      hvalue, hscale]
    rfl
  · rw [if_neg hscale, read_whole (fun c hc => hdigit c (List.mem_append_left _ hc)) hwhole,
      hstarted]
    have hpoint : digit? '.' = none := by decide
    rw [Scan.read, hpoint]
    simp only [Bool.not_false, and_self, if_true]
    rw [readDigits_append] at hvalue
    rw [read_fraction (fun c hc => hdigit c (List.mem_append_right _ hc)) (hvalue ▸ hlt)
      (by rw [hlen, Nat.zero_add]; exact d.scale_le), hvalue, hlen, Nat.zero_add]

theorem mem_unsignedText {d : Decimal} {c : Char} (h : c ∈ d.unsignedText) :
    c.isDigit = true ∨ c = '.' := by
  obtain ⟨whole, fraction, -, hdigits, -, htext⟩ := d.exists_unsignedText
  have hdigit : ∀ c ∈ whole ++ fraction, c.isDigit = true := fun c hc =>
    isDigit_of_mem_paddedDigits (hdigits ▸ hc)
  rw [htext] at h
  split at h
  · exact Or.inl (hdigit c (List.mem_append_left _ h))
  · rcases List.mem_append.mp h with h | h
    · exact Or.inl (hdigit c (List.mem_append_left _ h))
    · rcases List.mem_cons.mp h with rfl | h
      · exact Or.inr rfl
      · exact Or.inl (hdigit c (List.mem_append_right _ h))

theorem exists_unsignedText_eq_cons (d : Decimal) :
    ∃ c cs, d.unsignedText = c :: cs ∧ c.isDigit = true := by
  obtain ⟨whole, fraction, hne, hdigits, -, htext⟩ := d.exists_unsignedText
  obtain ⟨c, cs, rfl⟩ := List.exists_cons_of_ne_nil hne
  have hmem : c ∈ paddedDigits (d.scale + 1) d.magnitude := hdigits ▸ List.mem_cons_self
  have hc := isDigit_of_mem_paddedDigits hmem
  rw [htext]
  split
  · exact ⟨c, cs, rfl, hc⟩
  · exact ⟨c, cs ++ '.' :: fraction, rfl, hc⟩

theorem mem_render {d : Decimal} {c : Char} (h : c ∈ d.render) :
    c.isDigit = true ∨ c = '.' ∨ c = '-' := by
  rw [render_eq] at h
  split at h
  · rcases List.mem_cons.mp h with rfl | h
    · exact Or.inr (Or.inr rfl)
    · exact (mem_unsignedText h).imp_right Or.inl
  · exact (mem_unsignedText h).imp_right Or.inl

theorem readPlain?_of_digit {c : Char} {cs : List Char} (h : c.isDigit = true) :
    readPlain? (c :: cs) =
      (Scan.read ⟨false, false, 0, 0⟩ (c :: cs)).bind fun p => of? p.1 p.2 := by
  unfold readPlain?
  split
  · rename_i heq
    rw [(List.cons.inj heq).1] at h
    exact absurd h (by decide)
  · rename_i heq
    rw [(List.cons.inj heq).1] at h
    exact absurd h (by decide)
  · rfl

theorem readPlain?_render (d : Decimal) : readPlain? d.render = of? d.coefficient d.scale := by
  rw [render_eq, coefficient]
  split
  · rw [readPlain?, read_unsignedText, Option.bind_some]
  · obtain ⟨c, cs, htext, hc⟩ := d.exists_unsignedText_eq_cons
    rw [htext, readPlain?_of_digit hc, ← htext, read_unsignedText, Option.bind_some]

/-- The text of a decimal is read as the decimal, but a zero has lost its sign. -/
theorem read?_text (d : Decimal) : read? (trimmed d.text) = some d.dropZeroSign := by
  have hblank : ∀ c ∈ d.render, isBlank c = false := by
    intro c hc
    rcases mem_render hc with h | rfl | rfl
    · exact isBlank_of_isDigit h
    · decide
    · decide
  have hplain : ∀ c ∈ d.render, (c ≠ 'e' && c ≠ 'E') = true := by
    intro c hc
    have hne (x : Char) (hx : x.isDigit = false ∧ x ≠ '.' ∧ x ≠ '-') : c ≠ x := by
      rintro rfl
      rcases mem_render hc with h | h | h
      · simp [hx.1] at h
      · exact hx.2.1 h
      · exact hx.2.2 h
    simpa using ⟨hne 'e' (by decide), hne 'E' (by decide)⟩
  have htake : d.render.takeWhile (fun c => c ≠ 'e' && c ≠ 'E') = d.render := by
    rw [← List.append_nil d.render, List.takeWhile_append_of_pos hplain, List.takeWhile_nil]
  rw [read?, trimmed, text, String.toList_ofList, String.toList_ofList, trimBlanks_eq_self hblank,
    htake, readPlain?_render, List.drop_length, of?_coefficient]
  rfl

end Decimal

end PartitionPruning
