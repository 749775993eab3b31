import PartitionPruning.Text.Blank
import PartitionPruning.Text.Digits

/-! Reading back the digits of a number. Digits are read up to leading zeros, so both the digits of
a number and those of a padded number have the number as their value. -/

namespace PartitionPruning

theorem readDigits_eq_ofDigitChars (start : Nat) (cs : List Char) :
    readDigits start cs = Nat.ofDigitChars 10 cs start := rfl

theorem readDigits_append (start : Nat) (cs ds : List Char) :
    readDigits start (cs ++ ds) = readDigits (readDigits start cs) ds := by
  simp [readDigits_eq_ofDigitChars, Nat.ofDigitChars_append]

theorem isDigit_of_mem_decimalDigits {n : Nat} {c : Char} (h : c ∈ decimalDigits n) :
    c.isDigit = true :=
  Nat.isDigit_of_mem_toDigits (by decide) (by decide) h

theorem decimalDigits_ne_nil (n : Nat) : decimalDigits n ≠ [] := Nat.toDigits_ne_nil

theorem exists_decimalDigits (n : Nat) : ∃ c cs, decimalDigits n = c :: cs ∧ c.isDigit = true := by
  obtain ⟨c, cs, hcs⟩ := List.exists_cons_of_ne_nil (decimalDigits_ne_nil n)
  exact ⟨c, cs, hcs, isDigit_of_mem_decimalDigits (hcs ▸ List.mem_cons_self)⟩

theorem exists_signedDigits (n : Int) :
    ∃ c cs, signedDigits n = c :: cs ∧ (c = '-' ∨ c.isDigit = true) := by
  unfold signedDigits
  split
  · exact ⟨_, _, rfl, Or.inl rfl⟩
  · obtain ⟨c, cs, hcs, hc⟩ := exists_decimalDigits n.natAbs
    exact ⟨c, cs, hcs, Or.inr hc⟩

/-- Only zero is written with a zero in front. -/
theorem eq_zero_of_head?_decimalDigits {n : Nat} (h : (decimalDigits n).head? = some '0') :
    n = 0 := by
  unfold decimalDigits at h
  rcases Nat.lt_or_ge n 10 with hsmall | hlarge
  · rw [Nat.toDigits_of_lt_base hsmall] at h
    exact Nat.digitChar_eq_zero.mp (Option.some.inj h)
  · rw [Nat.toDigits_of_base_le (by decide) hlarge, List.head?_append, Option.or_eq_some_iff] at h
    have hfront : (decimalDigits (n / 10)).head? = some '0' := h.resolve_right fun hrest =>
      decimalDigits_ne_nil (n / 10) (List.head?_eq_none_iff.mp hrest.1)
    have := eq_zero_of_head?_decimalDigits hfront
    omega
termination_by n
decreasing_by omega

theorem spanDigits_append {ds rest : List Char} (hds : ∀ c ∈ ds, c.isDigit = true)
    (hrest : ∀ c, rest.head? = some c → c.isDigit = false) :
    spanDigits (ds ++ rest) = (ds, rest) := by
  rw [spanDigits, List.takeWhile_append_of_pos hds, List.dropWhile_append_of_pos hds]
  cases rest with
  | nil => simp
  | cons c rest => simp [hrest c rfl]

theorem spanDigits_of_digits {ds : List Char} (hds : ∀ c ∈ ds, c.isDigit = true) :
    spanDigits ds = (ds, []) := by
  have hspan : spanDigits (ds ++ []) = (ds, []) := spanDigits_append hds (by simp)
  rwa [List.append_nil] at hspan

theorem readDigits_decimalDigits (n : Nat) : readDigits 0 (decimalDigits n) = n :=
  Nat.ofDigitChars_ten_toDigits

theorem readDigits_paddedDigits (width n : Nat) : readDigits 0 (paddedDigits width n) = n := by
  rw [paddedDigits, readDigits_append]
  simp [readDigits_eq_ofDigitChars, Nat.ofDigitChars_replicate_zero, decimalDigits]

theorem isDigit_of_mem_paddedDigits {width n : Nat} {c : Char} (h : c ∈ paddedDigits width n) :
    c.isDigit = true := by
  rcases List.mem_append.mp h with h | h
  · rw [List.eq_of_mem_replicate h]
    decide
  · exact isDigit_of_mem_decimalDigits h

theorem le_length_paddedDigits (width n : Nat) : width ≤ (paddedDigits width n).length := by
  simp only [paddedDigits, List.length_append, List.length_replicate]
  omega

theorem length_paddedDigits {width n : Nat} (hwidth : 0 < width) (h : n < 10 ^ width) :
    (paddedDigits width n).length = width := by
  have hle := (Nat.length_toDigits_le_iff (b := 10) (by decide) hwidth).mpr h
  simp only [paddedDigits, decimalDigits, List.length_append, List.length_replicate]
  omega

theorem paddedDigits_ne_nil {width : Nat} (n : Nat) (h : 0 < width) : paddedDigits width n ≠ [] :=
  List.ne_nil_of_length_pos (Nat.lt_of_lt_of_le h (le_length_paddedDigits width n))

theorem exists_paddedDigits {width : Nat} (n : Nat) (h : 0 < width) :
    ∃ c cs, paddedDigits width n = c :: cs ∧ c.isDigit = true := by
  obtain ⟨c, cs, hcs⟩ := List.exists_cons_of_ne_nil (paddedDigits_ne_nil n h)
  exact ⟨c, cs, hcs, isDigit_of_mem_paddedDigits (hcs ▸ List.mem_cons_self)⟩

theorem readNat?_decimalDigits (n : Nat) : readNat? (decimalDigits n) = some n := by
  rw [readNat?, if_pos ⟨decimalDigits_ne_nil n, List.all_eq_true.mpr fun c hc =>
    isDigit_of_mem_decimalDigits hc⟩, readDigits_decimalDigits]

theorem readInt?_of_digits {cs : List Char} (h : ∀ c ∈ cs, c.isDigit = true) :
    readInt? cs = (readNat? cs).map fun n => (n : Int) := by
  unfold readInt?
  split
  · exact absurd (h '-' List.mem_cons_self) (by decide)
  · exact absurd (h '+' List.mem_cons_self) (by decide)
  · rfl

theorem readInt?_signedDigits (n : Int) : readInt? (signedDigits n) = some n := by
  unfold signedDigits
  split
  · rename_i hneg
    rw [readInt?, readNat?_decimalDigits]
    show some (-(n.natAbs : Int)) = some n
    rw [Option.some.injEq]
    omega
  · rename_i hpos
    rw [readInt?_of_digits fun c hc => isDigit_of_mem_decimalDigits hc, readNat?_decimalDigits]
    show some (n.natAbs : Int) = some n
    rw [Option.some.injEq]
    omega

theorem toInt64?_toInt (n : Int64) : toInt64? n.toInt = some n := by
  rw [toInt64?, if_pos ⟨n.le_toInt, n.toInt_lt⟩, Int64.ofInt_toInt]

/-! ### White space -/

theorem skipBlanks_eq_self {cs : List Char} (h : ∀ c, cs.head? = some c → isBlank c = false) :
    skipBlanks cs = cs := by
  cases cs with
  | nil => rfl
  | cons c cs =>
    rw [skipBlanks, List.dropWhile_cons_of_neg]
    simp [h c rfl]

theorem skipBlanks_append {cs : List Char} (rest : List Char) (h : ∀ c ∈ cs, isBlank c = false)
    (hne : cs ≠ []) : skipBlanks (cs ++ rest) = cs ++ rest := by
  obtain ⟨c, cs, rfl⟩ := List.exists_cons_of_ne_nil hne
  rw [List.cons_append, skipBlanks_eq_self]
  intro d hd
  rw [← Option.some.inj hd]
  exact h c List.mem_cons_self

/-- A text without white space has none at its ends. -/
theorem trimBlanks_eq_self {cs : List Char} (h : ∀ c ∈ cs, isBlank c = false) :
    trimBlanks cs = cs := by
  rw [trimBlanks, skipBlanks_eq_self fun c hc => h c (List.mem_of_head? hc), skipBlanks_eq_self,
    List.reverse_reverse]
  exact fun c hc => h c (List.mem_reverse.mp (List.mem_of_head? hc))

/-- White space between two texts is not trimmed. -/
theorem trimBlanks_append {front back : List Char} (middle : List Char)
    (hfront : ∀ c ∈ front, isBlank c = false) (hback : ∀ c ∈ back, isBlank c = false)
    (hne : front ≠ []) (hne' : back ≠ []) :
    trimBlanks (front ++ (middle ++ back)) = front ++ (middle ++ back) := by
  rw [trimBlanks, skipBlanks_append _ hfront hne, ← List.append_assoc, List.reverse_append,
    skipBlanks_append _ (fun c hc => hback c (List.mem_reverse.mp hc)) (by simpa using hne'),
    ← List.reverse_append, List.reverse_reverse]

theorem isBlank_of_isDigit {c : Char} (h : c.isDigit = true) : isBlank c = false := by
  have hrange : 48 ≤ c.toNat ∧ c.toNat ≤ 57 := by
    simp only [Char.isDigit, Bool.and_eq_true, decide_eq_true_eq] at h
    exact h
  unfold isBlank
  generalize c.toNat = n at hrange
  obtain ⟨hlow, hhigh⟩ := hrange
  grind

theorem isBlank_of_mem_paddedDigits {width n : Nat} {c : Char} (h : c ∈ paddedDigits width n) :
    isBlank c = false :=
  isBlank_of_isDigit (isDigit_of_mem_paddedDigits h)

theorem isBlank_of_mem_signedDigits {n : Int} {c : Char} (h : c ∈ signedDigits n) :
    isBlank c = false := by
  unfold signedDigits at h
  split at h
  · rcases List.mem_cons.mp h with rfl | h
    · decide
    · exact isBlank_of_isDigit (isDigit_of_mem_decimalDigits h)
  · exact isBlank_of_isDigit (isDigit_of_mem_decimalDigits h)

theorem readInt64?_intText (n : Int64) : readInt64? (trimmed (intText n.toInt)) = some n := by
  rw [readInt64?, trimmed, intText, String.toList_ofList, String.toList_ofList,
    trimBlanks_eq_self fun c hc => isBlank_of_mem_signedDigits hc, readInt?_signedDigits,
    Option.bind_some, toInt64?_toInt]

end PartitionPruning
