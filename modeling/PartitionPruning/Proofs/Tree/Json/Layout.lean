import PartitionPruning.Tree.Json.Lexeme
import PartitionPruning.Tree.Json.Printer

/-! Layouts: what stands between the parts of a printed tree. The text on one line and the indented
text are the same but for their layouts, so what holds of the text in any layout holds of both. -/

namespace PartitionPruning

namespace Json

def AllSpace (cs : List Char) : Prop := ∀ c ∈ cs, isSpace c = true

theorem skipSpace_append {space : List Char} (h : AllSpace space) (cs : List Char) :
    skipSpace (space ++ cs) = skipSpace cs :=
  List.dropWhile_append_of_pos h

theorem skipSpace_cons {c : Char} (h : isSpace c = false) (cs : List Char) :
    skipSpace (c :: cs) = c :: cs := by
  rw [skipSpace, List.dropWhile_cons_of_neg (Bool.eq_false_iff.mp h)]

structure Layout where
  /-- Before each part of an array or object at a depth, and before its closing bracket. -/
  line : Nat → List Char
  /-- Between the colon and the value of a field. -/
  gap : List Char
  line_space (depth : Nat) : AllSpace (line depth)
  gap_space : AllSpace gap

namespace Layout

variable (l : Layout)

/-- What follows the first of some texts between brackets, through the closing one. -/
def following (depth : Nat) (close : Char) : List (List Char) → List Char
  | [] => l.line depth ++ [close]
  | t :: ts => ',' :: l.line (depth + 1) ++ t ++ following depth close ts

/-- Texts with commas between them, through the closing bracket. -/
def enclosed (depth : Nat) (close : Char) : List (List Char) → List Char
  | [] => [close]
  | t :: ts => l.line (depth + 1) ++ t ++ l.following depth close ts

def fieldText (key : String) (value : List Char) : List Char := quoted key ++ ':' :: l.gap ++ value

mutual

def text (depth : Nat) : Node → List Char
  | .null => ['n', 'u', 'l', 'l']
  | .bool b => boolText b
  | .number n => n.digits
  | .string s => quoted s
  | .array xs => '[' :: l.enclosed depth ']' (itemTexts (depth + 1) xs)
  | .object fs => '\x7b' :: l.enclosed depth '\x7d' (fieldTexts (depth + 1) fs)

def itemTexts (depth : Nat) : List Node → List (List Char)
  | [] => []
  | x :: xs => text depth x :: itemTexts depth xs

def fieldTexts (depth : Nat) : List (String × Node) → List (List Char)
  | [] => []
  | (k, v) :: fs => l.fieldText k (text depth v) :: fieldTexts depth fs

end

theorem itemTexts_eq (depth : Nat) (xs : List Node) :
    l.itemTexts depth xs = xs.map (l.text depth) := by
  induction xs with
  | nil => rfl
  | cons x xs ih => rw [itemTexts, ih, List.map_cons]

theorem fieldTexts_eq (depth : Nat) (fs : Fields Node) :
    l.fieldTexts depth fs = fs.map fun e => l.fieldText e.1 (l.text depth e.2) := by
  induction fs with
  | nil => rfl
  | cons f fs ih => rw [fieldTexts, ih, List.map_cons]

theorem length_lt_following (depth : Nat) (close : Char) (ts : List (List Char)) :
    ts.length < (l.following depth close ts).length := by
  induction ts with
  | nil => simp [following]
  | cons t ts ih =>
    simp only [following, List.length_append, List.length_cons]
    omega

theorem length_le_enclosed (depth : Nat) (close : Char) (ts : List (List Char)) :
    ts.length ≤ (l.enclosed depth close ts).length := by
  cases ts with
  | nil => exact Nat.zero_le _
  | cons t ts =>
    have := l.length_lt_following depth close ts
    simp only [enclosed, List.length_append, List.length_cons]
    omega

/-! ### The two layouts -/

def oneLine : Layout where
  line _ := []
  gap := []
  line_space _ := List.forall_mem_nil _
  gap_space := List.forall_mem_nil _

def pretty : Layout where
  line := newLine
  gap := [' ']
  line_space _ :=
    List.forall_mem_cons.mpr ⟨rfl, fun _ hc => List.eq_of_mem_replicate hc ▸ rfl⟩
  gap_space := List.forall_mem_singleton.mpr rfl

mutual

theorem compact_eq_text (depth : Nat) (n : Node) : compact n = oneLine.text depth n := by
  match n with
  | .null | .bool _ | .number _ | .string _ => rfl
  | .array [] | .object [] => rfl
  | .array (x :: xs) =>
    rw [compact, compact_eq_text (depth + 1) x, compactItems_eq_following depth xs]
    rfl
  | .object ((k, v) :: fs) =>
    rw [compact, compact_eq_text (depth + 1) v, compactFields_eq_following depth fs]
    simp [text, fieldTexts, enclosed, fieldText, oneLine]

theorem compactItems_eq_following (depth : Nat) (xs : List Node) :
    compactItems xs = oneLine.following depth ']' (oneLine.itemTexts (depth + 1) xs) := by
  match xs with
  | [] => rfl
  | x :: xs =>
    rw [compactItems, compact_eq_text (depth + 1) x, compactItems_eq_following depth xs]
    rfl

theorem compactFields_eq_following (depth : Nat) (fs : List (String × Node)) :
    compactFields fs = oneLine.following depth '\x7d' (oneLine.fieldTexts (depth + 1) fs) := by
  match fs with
  | [] => rfl
  | (k, v) :: fs =>
    rw [compactFields, compact_eq_text (depth + 1) v, compactFields_eq_following depth fs]
    simp [fieldTexts, following, fieldText, oneLine]

end

mutual

theorem indented_eq_text (depth : Nat) (n : Node) : indented depth n = pretty.text depth n := by
  match n with
  | .null | .bool _ | .number _ | .string _ => rfl
  | .array [] | .object [] => rfl
  | .array (x :: xs) =>
    rw [indented, indented_eq_text (depth + 1) x, indentedItems_eq_following depth xs]
    simp [text, itemTexts, enclosed, pretty]
  | .object ((k, v) :: fs) =>
    rw [indented, indented_eq_text (depth + 1) v, indentedFields_eq_following depth fs]
    simp [text, fieldTexts, enclosed, fieldText, pretty]

theorem indentedItems_eq_following (depth : Nat) (xs : List Node) :
    indentedItems depth xs = pretty.following depth ']' (pretty.itemTexts (depth + 1) xs) := by
  match xs with
  | [] => rfl
  | x :: xs =>
    rw [indentedItems, indented_eq_text (depth + 1) x, indentedItems_eq_following depth xs]
    rfl

theorem indentedFields_eq_following (depth : Nat) (fs : List (String × Node)) :
    indentedFields depth fs = pretty.following depth '\x7d' (pretty.fieldTexts (depth + 1) fs) := by
  match fs with
  | [] => rfl
  | (k, v) :: fs =>
    rw [indentedFields, indented_eq_text (depth + 1) v, indentedFields_eq_following depth fs]
    simp [fieldTexts, following, fieldText, pretty]

end

end Layout

end Json

end PartitionPruning
