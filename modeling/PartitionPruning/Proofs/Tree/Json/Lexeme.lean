import PartitionPruning.Proofs.Text.Digits
import PartitionPruning.Tree.Json.Lexeme
import PartitionPruning.Tree.Json.Printer

/-! Reading back the strings and the integers of a printed tree. -/

namespace PartitionPruning

namespace Json

/-! ### Strings -/

/-- A control character is written with four digits, which spell its number. -/
theorem exists_hexChars {n : Nat} (hn : n < 0x20) :
    ∃ a b c d, hexChars 4 n = [a, b, c, d] ∧ hexUnit? a b c d = some n := by
  have hall : ∀ n < 0x20,
      hexChars 4 n = ['0', '0', Nat.digitChar (n / 16), Nat.digitChar (n % 16)] ∧
      hexUnit? '0' '0' (Nat.digitChar (n / 16)) (Nat.digitChar (n % 16)) = some n := by decide
  exact ⟨_, _, _, _, hall n hn⟩

theorem readText_escapeChar (c : Char) (rest : List Char) :
    readText (escapeChar c ++ rest) = withChar c (readText rest) := by
  unfold escapeChar
  split
  · subst_vars; rfl
  split
  · subst_vars; rfl
  split
  · subst_vars; rfl
  split
  · subst_vars; rfl
  split
  · subst_vars; rfl
  split
  · subst_vars; rfl
  split
  · subst_vars; rfl
  split
  · rename_i hcontrol
    obtain ⟨u, v, w, x, hchars, hunit⟩ := exists_hexChars hcontrol
    have htrail : isTrailUnit c.toNat = false := by simp [isTrailUnit]; omega
    have hlead : isLeadUnit c.toNat = false := by simp [isLeadUnit]; omega
    rw [hchars]
    show readText ('\\' :: 'u' :: u :: v :: w :: x :: rest) = _
    rw [readText]
    simp [hunit, htrail, hlead, Char.ofNat_toNat]
  · rename_i hquote hslash _ _ _ _ _ hcontrol
    rw [List.cons_append, List.nil_append, readText]
    · rw [if_neg hcontrol]
    all_goals simp_all

theorem readText_escapeText (cs rest : List Char) :
    readText (escapeText cs ++ '"' :: rest) = some (cs, rest) := by
  induction cs with
  | nil => rfl
  | cons c cs ih =>
    rw [escapeText, List.append_assoc, readText_escapeChar, ih]
    rfl

theorem quoted_append (s : String) (rest : List Char) :
    quoted s ++ rest = '"' :: (escapeText s.toList ++ '"' :: rest) := by
  simp [quoted]

/-- A string is told apart from what follows it, and from any other string. -/
theorem quoted_append_inj {s t : String} {r u : List Char} (h : quoted s ++ r = quoted t ++ u) :
    s = t ∧ r = u := by
  rw [quoted_append, quoted_append] at h
  have hread := congrArg readText (List.cons.inj h).2
  rw [readText_escapeText, readText_escapeText, Option.some.injEq, Prod.mk.injEq] at hread
  exact ⟨String.toList_inj.mp hread.1, hread.2⟩

/-! ### Integers -/

def closes (c : Char) : Bool := c = ']' || c = '\x7d'

/-- The character may follow a value. -/
def isBoundary (c : Char) : Bool := isSpace c || c = ',' || closes c

/-- Nothing follows, or something that no value goes on with. -/
def EndsValue (cs : List Char) : Prop := ∀ c, cs.head? = some c → isBoundary c = true

theorem isDigit_eq_false_of_isBoundary {c : Char} (h : isBoundary c = true) :
    c.isDigit = false := by
  simp only [isBoundary, isSpace, closes, Bool.or_eq_true, decide_eq_true_eq] at h
  rcases h with ((((rfl | rfl) | rfl) | rfl) | rfl) | rfl | rfl <;> rfl

theorem readFraction_of_endsValue {cs : List Char} (h : EndsValue cs) :
    readFraction cs = some ([], cs) := by
  unfold readFraction
  split
  · cases h '.' rfl
  · rfl

theorem readExponent_of_endsValue {cs : List Char} (h : EndsValue cs) :
    readExponent cs = some (none, cs) := by
  unfold readExponent
  split
  all_goals first | cases h _ rfl | rfl

theorem readUnsigned_decimalDigits (negative : Bool) (n : Nat) {rest : List Char}
    (h : EndsValue rest) : readUnsigned negative (decimalDigits n ++ rest) =
      some (⟨negative, decimalDigits n, [], none⟩, rest) := by
  have hzero : ¬ (decimalDigits n = [] ∨
      ((decimalDigits n).head? = some '0' ∧ (decimalDigits n).length ≠ 1)) := by
    rintro (hnil | ⟨hhead, hlength⟩)
    · exact decimalDigits_ne_nil n hnil
    · obtain rfl := eq_zero_of_head?_decimalDigits hhead
      exact hlength rfl
  rw [readUnsigned, spanDigits_append (fun _ => isDigit_of_mem_decimalDigits)
    fun c hc => isDigit_eq_false_of_isBoundary (h c hc)]
  simp only [if_neg hzero, readFraction_of_endsValue h, readExponent_of_endsValue h,
    Option.bind_some, Option.map_some]

theorem readNumberText_signedDigits (n : Int) {rest : List Char} (h : EndsValue rest) :
    readNumberText (signedDigits n ++ rest) =
      some (⟨decide (n < 0), decimalDigits n.natAbs, [], none⟩, rest) := by
  unfold signedDigits
  split
  · rename_i hneg
    rw [decide_eq_true hneg]
    exact readUnsigned_decimalDigits true n.natAbs h
  · rename_i hpos
    obtain ⟨c, cs, hcs, hdigit⟩ := exists_decimalDigits n.natAbs
    rw [decide_eq_false hpos, ← readUnsigned_decimalDigits false n.natAbs h]
    unfold readNumberText
    split
    · rename_i heq
      rw [hcs] at heq
      obtain ⟨rfl, -⟩ := List.cons.inj heq
      contradiction
    · rfl

theorem number?_integer (n : Int) (range : leastInteger ≤ n ∧ n < integerBound) :
    NumberText.number? ⟨decide (n < 0), decimalDigits n.natAbs, [], none⟩ =
      some (.integer n range) := by
  have hvalue : (if decide (n < 0) = true then -(n.natAbs : Int) else n.natAbs) = n := by
    simp only [decide_eq_true_eq]
    split <;> omega
  -- A minus sign stands before no zero.
  have hzero : ¬ (decide (n < 0) = true ∧ n.natAbs = 0) := by
    rw [decide_eq_true_eq]
    omega
  simp only [NumberText.number?, readDigits_decimalDigits, hzero, not_false_eq_true, and_self,
    if_true, hvalue, Number.ofInt?, dif_pos range]

theorem readNumber_integer (n : Int) (range : leastInteger ≤ n ∧ n < integerBound)
    {rest : List Char} (h : EndsValue rest) :
    readNumber ((Number.integer n range).digits ++ rest) = some (.integer n range, rest) := by
  rw [readNumber, Number.digits, readNumberText_signedDigits n h, Option.bind_some]
  simp only [number?_integer n range, Option.map_some]

end Json

end PartitionPruning
