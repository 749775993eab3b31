import PartitionPruning.Proofs.Text.Digits

/-! Texts in upper case, and white space around them: neither of the two changes the other. -/

namespace PartitionPruning

/-- Only small letters have another upper case, which is a capital letter. -/
theorem toUpper_cases (c : Char) : c.toUpper = c ∨
    (97 ≤ c.toNat ∧ c.toNat ≤ 122) ∧ 65 ≤ c.toUpper.toNat ∧ c.toUpper.toNat ≤ 90 := by
  unfold Char.toUpper
  split
  · rename_i h
    have hlow : 97 ≤ c.val.toNat := UInt32.le_iff_toNat_le.mp h.1
    have hhigh : c.val.toNat ≤ 122 := UInt32.le_iff_toNat_le.mp h.2
    have hshift : ('A'.val - 'a'.val).toNat = 2 ^ 32 - 32 := by decide
    have hvalue : (c.val + ('A'.val - 'a'.val)).toNat = c.val.toNat - 32 := by
      rw [UInt32.toNat_add, hshift]
      omega
    refine Or.inr ⟨⟨hlow, hhigh⟩, ?_⟩
    show 65 ≤ (c.val + ('A'.val - 'a'.val)).toNat ∧ (c.val + ('A'.val - 'a'.val)).toNat ≤ 90
    omega
  · exact Or.inl rfl

theorem toUpper_toUpper (c : Char) : c.toUpper.toUpper = c.toUpper := by
  rcases toUpper_cases c with h | ⟨-, -, hhigh⟩
  · exact congrArg Char.toUpper h
  · rcases toUpper_cases c.toUpper with h | ⟨⟨hsmall, -⟩, -⟩
    · exact h
    · omega

theorem toUpper_of_isDigit {c : Char} (h : c.isDigit = true) : c.toUpper = c := by
  have hdigit : c.toNat ≤ 57 := by
    simp only [Char.isDigit, Bool.and_eq_true, decide_eq_true_eq] at h
    exact h.2
  rcases toUpper_cases c with heq | ⟨⟨hsmall, -⟩, -⟩
  · exact heq
  · omega

theorem isBlank_of_isLetter {c : Char} (h : 65 ≤ c.toNat ∧ c.toNat ≤ 122) : isBlank c = false := by
  unfold isBlank
  generalize c.toNat = n at h
  obtain ⟨hlow, hhigh⟩ := h
  grind

theorem isBlank_toUpper (c : Char) : isBlank c.toUpper = isBlank c := by
  rcases toUpper_cases c with h | ⟨hsmall, hcapital⟩
  · rw [h]
  · rw [isBlank_of_isLetter (by omega), isBlank_of_isLetter (by omega)]

/-! ### White space at the front -/

theorem skipBlanks_map_toUpper (cs : List Char) :
    skipBlanks (cs.map Char.toUpper) = (skipBlanks cs).map Char.toUpper := by
  have hblank : isBlank ∘ Char.toUpper = isBlank := funext isBlank_toUpper
  rw [skipBlanks, List.dropWhile_map, hblank, skipBlanks]

/-- White space at the front of a text, in one that goes on after it. -/
theorem skipBlanks_append_cases (cs ds : List Char) :
    (skipBlanks cs = [] ∧ skipBlanks (cs ++ ds) = skipBlanks ds) ∨
      skipBlanks (cs ++ ds) = skipBlanks cs ++ ds := by
  unfold skipBlanks
  rw [List.dropWhile_append]
  split
  · exact Or.inl ⟨List.isEmpty_iff.mp ‹_›, rfl⟩
  · exact Or.inr rfl

theorem skipBlanks_blanks_append {blanks : List Char} (h : ∀ c ∈ blanks, isBlank c = true)
    (cs : List Char) : skipBlanks (blanks ++ cs) = skipBlanks cs :=
  List.dropWhile_append_of_pos h

end PartitionPruning
