import PartitionPruning.Proofs.Text.Digits
import PartitionPruning.Proofs.Tree.Json.Lexeme
import PartitionPruning.Proofs.Tree.Same

/-! Text on one line is read in one way only: trees with the same text match, numbers by their
digits. A number ends where a character follows that no number holds; all other values show their
own end. -/

namespace PartitionPruning

namespace Json

/-! ### Numbers -/

def isNumberChar (c : Char) : Bool := c.isDigit || c = '-' || c = '+' || c = '.' || c = 'e'

theorem isNumberChar_of_isDigit {c : Char} (h : c.isDigit = true) : isNumberChar c = true := by
  simp [isNumberChar, h]

/-- The text is not empty, and all of it is of numbers. -/
def IsNumberText (cs : List Char) : Prop := cs ≠ [] ∧ ∀ c ∈ cs, isNumberChar c = true

namespace IsNumberText

variable {cs ds : List Char}

theorem cons {c : Char} (hc : isNumberChar c = true) (h : ∀ d ∈ cs, isNumberChar d = true) :
    IsNumberText (c :: cs) :=
  ⟨List.cons_ne_nil _ _, List.forall_mem_cons.mpr ⟨hc, h⟩⟩

theorem append (h : IsNumberText cs) (hds : ∀ d ∈ ds, isNumberChar d = true) :
    IsNumberText (cs ++ ds) := by
  refine ⟨List.append_ne_nil_of_left_ne_nil h.1 _, fun c hc => ?_⟩
  rcases List.mem_append.mp hc with hc | hc
  · exact h.2 c hc
  · exact hds c hc

theorem withSign (h : IsNumberText cs) (negative : Bool) :
    IsNumberText (withSign negative cs) := by
  unfold PartitionPruning.withSign
  split
  · exact cons rfl h.2
  · exact h

end IsNumberText

theorem isNumberText_decimalDigits (n : Nat) : IsNumberText (decimalDigits n) :=
  ⟨decimalDigits_ne_nil n, fun _ hc => isNumberChar_of_isDigit (isDigit_of_mem_decimalDigits hc)⟩

theorem isNumberText_signedDigits (n : Int) : IsNumberText (signedDigits n) := by
  unfold signedDigits
  split
  · exact .cons rfl (isNumberText_decimalDigits _).2
  · exact isNumberText_decimalDigits _

theorem isNumberText_positional {ds : List Char} (h : IsNumberText ds) (point : Int) :
    IsNumberText (positional ds point) := by
  have hzero (k : Nat) : ∀ c ∈ List.replicate k '0', isNumberChar c = true := fun c hc =>
    List.eq_of_mem_replicate hc ▸ rfl
  unfold positional
  split
  · refine .cons rfl (List.forall_mem_cons.mpr ⟨rfl, ?_⟩)
    exact List.forall_mem_append.mpr ⟨hzero _, h.2⟩
  split
  · exact h.append (hzero _)
  · have hwhole : ∀ c ∈ ds.take point.toNat, isNumberChar c = true := fun c hc =>
      h.2 c (List.mem_of_mem_take hc)
    refine ⟨by simp, List.forall_mem_append.mpr ⟨hwhole, ?_⟩⟩
    exact List.forall_mem_cons.mpr ⟨rfl, fun c hc => h.2 c (List.mem_of_mem_drop hc)⟩

theorem isNumberText_jsonDigits (x : FiniteDouble) : IsNumberText x.jsonDigits := by
  have hdigits : IsNumberText (x.layout .toEven).1 := isNumberText_decimalDigits _
  unfold FiniteDouble.jsonDigits
  refine IsNumberText.withSign ?_ x.negative
  split
  · exact .cons rfl (List.all_eq_true.mp rfl)
  simp only []
  split
  · have hplain := isNumberText_positional hdigits (x.layout .toEven).2
    split
    · exact hplain
    · exact hplain.append (List.all_eq_true.mp rfl)
  · refine IsNumberText.append ?_ ?_
    -- The significand is the digits with a point put into them.
    · split
      · rename_i d e rest heq
        rw [heq] at hdigits
        obtain ⟨hfirst, hrest⟩ := List.forall_mem_cons.mp hdigits.2
        exact .cons hfirst (List.forall_mem_cons.mpr ⟨rfl, hrest⟩)
      · exact hdigits
    · refine List.forall_mem_cons.mpr ⟨rfl, List.forall_mem_cons.mpr ⟨?_, ?_⟩⟩
      · split <;> rfl
      · exact (isNumberText_decimalDigits _).2

theorem isNumberText_digits (n : Number) : IsNumberText n.digits := by
  cases n with
  | integer n _ => exact isNumberText_signedDigits n
  | float x => exact isNumberText_jsonDigits x

/-- The text does not go on with a character of a number. -/
def EndsNumber (cs : List Char) : Prop := ∀ c, cs.head? = some c → isNumberChar c = false

theorem takeWhile_digits_append (n : Number) {r : List Char} (hr : EndsNumber r) :
    (n.digits ++ r).takeWhile isNumberChar = n.digits := by
  rw [List.takeWhile_append_of_pos (isNumberText_digits n).2]
  cases r with
  | nil => simp
  | cons c r => simp [hr c rfl]

theorem digits_append_inj {n m : Number} {r s : List Char} (hr : EndsNumber r)
    (hs : EndsNumber s) (h : n.digits ++ r = m.digits ++ s) : n.digits = m.digits ∧ r = s := by
  have hdigits : n.digits = m.digits := by
    rw [← takeWhile_digits_append n hr, h, takeWhile_digits_append m hs]
  exact ⟨hdigits, List.append_cancel_left (hdigits ▸ h)⟩

end Json

def Number.sameDigits (n m : Number) : Bool := n.digits == m.digits

namespace Json

/-! ### Trees -/

/-- The character may be the first of the text of a node. -/
def starts : Node → Char → Bool
  | .null, c => c = 'n'
  | .bool _, c => c = 't' || c = 'f'
  | .number _, c => isNumberChar c
  | .string _, c => c = '"'
  | .array _, c => c = '['
  | .object _, c => c = '\x7b'

theorem exists_compact (n : Node) : ∃ c cs, compact n = c :: cs ∧ starts n c = true := by
  match n with
  | .null => exact ⟨_, _, rfl, rfl⟩
  | .bool true => exact ⟨_, _, rfl, rfl⟩
  | .bool false => exact ⟨_, _, rfl, rfl⟩
  | .number n =>
    obtain ⟨c, cs, hcs⟩ := List.exists_cons_of_ne_nil (isNumberText_digits n).1
    refine ⟨c, cs, by rw [compact, hcs], ?_⟩
    exact (isNumberText_digits n).2 c (hcs ▸ List.mem_cons_self)
  | .string _ => exact ⟨_, _, rfl, rfl⟩
  | .array [] => exact ⟨_, _, rfl, rfl⟩
  | .array (_ :: _) => exact ⟨_, _, rfl, rfl⟩
  | .object [] => exact ⟨_, _, rfl, rfl⟩
  | .object ((_, _) :: _) => exact ⟨_, _, rfl, rfl⟩

theorem shape_eq_of_starts {a b : Node} {c : Char} (ha : starts a c = true)
    (hb : starts b c = true) : a.shape = b.shape := by
  have hnumber : isNumberChar 'n' = false ∧ isNumberChar 't' = false ∧
      isNumberChar 'f' = false ∧ isNumberChar '"' = false ∧ isNumberChar '[' = false ∧
      isNumberChar '\x7b' = false := by decide
  cases a <;> cases b <;> grind [starts, Node.shape]

/-- Texts that agree from their start on are texts of nodes of the same kind. -/
theorem shape_eq_of_compact {a b : Node} {r s : List Char}
    (h : compact a ++ r = compact b ++ s) : a.shape = b.shape := by
  obtain ⟨c, cs, ha, hc⟩ := exists_compact a
  obtain ⟨d, ds, hb, hd⟩ := exists_compact b
  rw [ha, hb] at h
  obtain ⟨rfl, -⟩ := List.cons.inj h
  exact shape_eq_of_starts hc hd

theorem compactItems_ends (xs : List Node) (r : List Char) : EndsNumber (compactItems xs ++ r) := by
  intro c hc
  cases xs <;> obtain rfl := Option.some.inj hc <;> rfl

theorem compactFields_ends (fs : Fields Node) (r : List Char) :
    EndsNumber (compactFields fs ++ r) := by
  intro c hc
  cases fs <;> obtain rfl := Option.some.inj hc <;> rfl

/-- No value starts with the bracket that closes an array. -/
theorem compact_ne_close {x : Node} {cs r : List Char} : compact x ++ cs ≠ ']' :: r := by
  intro h
  obtain ⟨c, ds, hx, hstarts⟩ := exists_compact x
  rw [hx] at h
  obtain ⟨rfl, -⟩ := List.cons.inj h
  cases x <;> contradiction

mutual

theorem compact_append_inj (a b : Node) {r s : List Char} (hr : EndsNumber r)
    (hs : EndsNumber s) (h : compact a ++ r = compact b ++ s) :
    a.matchesBy Number.sameDigits b = true ∧ r = s := by
  -- What follows the texts is left open, so that items can be taken off the front one by one.
  have hshape := shape_eq_of_compact h
  cases a with
  | null =>
    cases b with
    | null => exact ⟨rfl, List.append_cancel_left h⟩
    | _ => contradiction
  | bool a =>
    cases b with
    | bool b =>
      have heq : a = b := by cases a <;> cases b <;> simp_all [compact, boolText]
      subst heq
      exact ⟨by simp [Node.matchesBy], List.append_cancel_left h⟩
    | _ => contradiction
  | number n =>
    cases b with
    | number m =>
      obtain ⟨hdigits, hrest⟩ := digits_append_inj hr hs h
      exact ⟨by simp [Node.matchesBy, Number.sameDigits, hdigits], hrest⟩
    | _ => contradiction
  | string a =>
    cases b with
    | string b =>
      obtain ⟨rfl, hrest⟩ := quoted_append_inj h
      exact ⟨by simp [Node.matchesBy], hrest⟩
    | _ => contradiction
  | array xs =>
    cases b with
    | array ys =>
      match xs, ys with
      | [], [] => exact ⟨rfl, List.append_cancel_left h⟩
      | [], y :: ys => exact absurd (by simpa [compact] using h.symm) compact_ne_close
      | x :: xs, [] => exact absurd (by simpa [compact] using h) compact_ne_close
      | x :: xs, y :: ys =>
        simp only [compact, List.cons_append, List.cons.injEq, true_and, List.append_assoc] at h
        obtain ⟨hfirst, hrest⟩ := compact_append_inj x y (compactItems_ends _ _)
          (compactItems_ends _ _) h
        obtain ⟨hitems, hrest⟩ := compactItems_append_inj xs ys hrest
        exact ⟨by simp [Node.matchesBy, Node.itemsMatchBy, hfirst, hitems], hrest⟩
    | _ => contradiction
  | object fs =>
    cases b with
    | object gs =>
      match fs, gs with
      | [], [] => exact ⟨rfl, List.append_cancel_left h⟩
      | [], (_, _) :: _ => simp [compact, quoted] at h
      | (_, _) :: _, [] => simp [compact, quoted] at h
      | (k, x) :: fs, (l, y) :: gs =>
        simp only [compact, List.cons_append, List.cons.injEq, true_and, List.append_assoc] at h
        obtain ⟨rfl, hrest⟩ := quoted_append_inj h
        obtain ⟨hfirst, hrest⟩ := compact_append_inj x y (compactFields_ends _ _)
          (compactFields_ends _ _) (List.cons.inj hrest).2
        obtain ⟨hfields, hrest⟩ := compactFields_append_inj fs gs hrest
        exact ⟨by simp [Node.matchesBy, Node.fieldsMatchBy, hfirst, hfields], hrest⟩
    | _ => contradiction

theorem compactItems_append_inj (xs ys : List Node) {r s : List Char}
    (h : compactItems xs ++ r = compactItems ys ++ s) :
    Node.itemsMatchBy Number.sameDigits xs ys = true ∧ r = s := by
  match xs, ys with
  | [], [] => exact ⟨rfl, List.append_cancel_left h⟩
  | [], _ :: _ => cases h
  | _ :: _, [] => cases h
  | x :: xs, y :: ys =>
    simp only [compactItems, List.cons_append, List.cons.injEq, true_and, List.append_assoc] at h
    obtain ⟨hfirst, hrest⟩ := compact_append_inj x y (compactItems_ends _ _)
      (compactItems_ends _ _) h
    obtain ⟨hitems, hrest⟩ := compactItems_append_inj xs ys hrest
    exact ⟨by simp [Node.itemsMatchBy, hfirst, hitems], hrest⟩

theorem compactFields_append_inj (fs gs : Fields Node) {r s : List Char}
    (h : compactFields fs ++ r = compactFields gs ++ s) :
    Node.fieldsMatchBy Number.sameDigits fs gs = true ∧ r = s := by
  match fs, gs with
  | [], [] => exact ⟨rfl, List.append_cancel_left h⟩
  | [], _ :: _ => cases h
  | _ :: _, [] => cases h
  | (k, x) :: fs, (l, y) :: gs =>
    simp only [compactFields, List.cons_append, List.cons.injEq, true_and, List.append_assoc] at h
    obtain ⟨rfl, hrest⟩ := quoted_append_inj h
    obtain ⟨hfirst, hrest⟩ := compact_append_inj x y (compactFields_ends _ _)
      (compactFields_ends _ _) (List.cons.inj hrest).2
    obtain ⟨hfields, hrest⟩ := compactFields_append_inj fs gs hrest
    exact ⟨by simp [Node.fieldsMatchBy, hfirst, hfields], hrest⟩

end

mutual

theorem compact_eq_of_matchesBy (a b : Node) (h : a.matchesBy Number.sameDigits b = true) :
    compact a = compact b := by
  match a, b with
  | .null, b => cases b <;> simp_all [Node.matchesBy]
  | .bool _, b => cases b <;> simp_all [Node.matchesBy]
  | .number _, b => cases b <;> simp_all [Node.matchesBy, Number.sameDigits, compact]
  | .string _, b => cases b <;> simp_all [Node.matchesBy]
  | .array xs, b =>
    cases b <;> simp only [Node.matchesBy, Bool.false_eq_true] at h
    rename_i ys
    match xs, ys with
    | [], [] => rfl
    | [], _ :: _ => contradiction
    | _ :: _, [] => contradiction
    | x :: xs, y :: ys =>
      simp only [Node.itemsMatchBy, Bool.and_eq_true] at h
      rw [compact, compact, compact_eq_of_matchesBy x y h.1, compactItems_eq xs ys h.2]
  | .object fs, b =>
    cases b <;> simp only [Node.matchesBy, Bool.false_eq_true] at h
    rename_i gs
    match fs, gs with
    | [], [] => rfl
    | [], _ :: _ => contradiction
    | _ :: _, [] => contradiction
    | (k, x) :: fs, (l, y) :: gs =>
      simp only [Node.fieldsMatchBy, Bool.and_eq_true, beq_iff_eq] at h
      rw [compact, compact, h.1.1, compact_eq_of_matchesBy x y h.1.2, compactFields_eq fs gs h.2]

theorem compactItems_eq (xs ys : List Node)
    (h : Node.itemsMatchBy Number.sameDigits xs ys = true) : compactItems xs = compactItems ys := by
  match xs, ys with
  | [], [] => rfl
  | [], _ :: _ => contradiction
  | _ :: _, [] => contradiction
  | x :: xs, y :: ys =>
    simp only [Node.itemsMatchBy, Bool.and_eq_true] at h
    rw [compactItems, compactItems, compact_eq_of_matchesBy x y h.1, compactItems_eq xs ys h.2]

theorem compactFields_eq (fs gs : Fields Node)
    (h : Node.fieldsMatchBy Number.sameDigits fs gs = true) :
    compactFields fs = compactFields gs := by
  match fs, gs with
  | [], [] => rfl
  | [], _ :: _ => contradiction
  | _ :: _, [] => contradiction
  | (k, x) :: fs, (l, y) :: gs =>
    simp only [Node.fieldsMatchBy, Bool.and_eq_true, beq_iff_eq] at h
    rw [compactFields, compactFields, h.1.1, compact_eq_of_matchesBy x y h.1.2,
      compactFields_eq fs gs h.2]

end

/-- Trees have the same text if they match, fields in the same order and numbers by their
digits. -/
theorem compact_eq_iff {a b : Node} :
    compact a = compact b ↔ a.matchesBy Number.sameDigits b = true := by
  constructor
  · intro h
    have hends : EndsNumber [] := by simp [EndsNumber]
    exact (compact_append_inj a b hends hends (congrArg (· ++ []) h)).1
  · exact compact_eq_of_matchesBy a b

end Json

end PartitionPruning
