import PartitionPruning.Hive.DirectoryName

/-! Escaped texts. Escaping leaves no special character but the percent sign, and takes nothing away
that reading the escapes does not give back. -/

namespace PartitionPruning

namespace DirectoryName

/-! ### One character -/

theorem toNat_lt_of_isSpecial {c : Char} (h : isSpecial c = true) : c.toNat < 256 := by
  simp only [isSpecial, Bool.or_eq_true, Bool.and_eq_true, decide_eq_true_eq, beq_iff_eq,
    List.contains_iff_mem] at h
  rcases h with (hcontrol | hdelete) | hmem
  · omega
  · omega
  · simp only [List.mem_cons, List.not_mem_nil, or_false] at hmem
    rcases hmem with rfl | rfl | rfl | rfl | rfl | rfl | rfl | rfl | rfl | rfl | rfl | rfl | rfl |
      rfl
    all_goals decide

theorem hexDigit?_upperHexDigit {n : Nat} (h : n < 16) : hexDigit? (upperHexDigit n) = some n := by
  have hall : ∀ n < 16, hexDigit? (upperHexDigit n) = some n := by decide
  exact hall n h

theorem isSpecial_upperHexDigit {n : Nat} (h : n < 16) : isSpecial (upperHexDigit n) = false := by
  have hall : ∀ n < 16, isSpecial (upperHexDigit n) = false := by decide
  exact hall n h

theorem escaped?_upperHexDigit {n : Nat} (h : n < 256) :
    escaped? (upperHexDigit (n / 16)) (upperHexDigit (n % 16)) = some (Char.ofNat n) := by
  rw [escaped?, hexDigit?_upperHexDigit (by omega), hexDigit?_upperHexDigit (by omega)]
  simp only [Nat.div_add_mod]

/-- The escape of a character is read as the character, whatever follows it. -/
theorem unescape_escapeChar (c : Char) (rest : List Char) :
    unescape (escapeChar c ++ rest) = c :: unescape rest := by
  rw [escapeChar]
  split
  · rename_i hspecial
    have hcode := escaped?_upperHexDigit (toNat_lt_of_isSpecial hspecial)
    rw [Char.ofNat_toNat] at hcode
    simp only [List.cons_append, List.nil_append, unescape, hcode]
  · rename_i hplain
    have hpercent : c ≠ '%' := by
      rintro rfl
      exact hplain (by decide)
    rw [List.singleton_append, unescape]
    intro a b tail heq
    exact absurd heq hpercent

/-! ### Texts -/

theorem unescape_escape (cs : List Char) : unescape (escape cs) = cs := by
  induction cs with
  | nil => rfl
  | cons c cs ih => rw [escape, unescape_escapeChar, ih]

theorem toValue_ofValue (value : String) : toValue (ofValue value) = value := by
  rw [toValue, ofValue, String.toList_ofList, unescape_escape, String.ofList_toList]

/-- Of the special characters an escaped text holds only the percent sign. -/
theorem eq_percent_of_mem_escape {c : Char} {cs : List Char} (h : c ∈ escape cs)
    (hspecial : isSpecial c = true) : c = '%' := by
  induction cs with
  | nil => contradiction
  | cons d cs ih =>
    rcases List.mem_append.mp h with hd | hrest
    · rw [escapeChar] at hd
      split at hd
      · rename_i hescaped
        have hlt := toNat_lt_of_isSpecial hescaped
        simp only [List.mem_cons, List.not_mem_nil, or_false] at hd
        rcases hd with rfl | rfl | rfl
        · rfl
        · rw [isSpecial_upperHexDigit (by omega)] at hspecial
          contradiction
        · rw [isSpecial_upperHexDigit (by omega)] at hspecial
          contradiction
      · rename_i hplain
        rw [List.mem_singleton] at hd
        exact absurd (hd ▸ hspecial) hplain
    · exact ih hrest

theorem slash_not_mem_escape (cs : List Char) : '/' ∉ escape cs := fun h =>
  absurd (eq_percent_of_mem_escape h (by decide)) (by decide)

theorem equals_not_mem_escape (cs : List Char) : '=' ∉ escape cs := fun h =>
  absurd (eq_percent_of_mem_escape h (by decide)) (by decide)

theorem escape_ne_nil {cs : List Char} (h : cs ≠ []) : escape cs ≠ [] := by
  intro hnil
  have hcs := unescape_escape cs
  rw [hnil] at hcs
  exact h hcs.symm

end DirectoryName

end PartitionPruning
