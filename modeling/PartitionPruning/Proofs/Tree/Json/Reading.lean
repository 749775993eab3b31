import PartitionPruning.Proofs.Tree.Json.Layout
import PartitionPruning.Proofs.Tree.Json.Lexeme
import PartitionPruning.Proofs.Tree.Printable

/-! Reading texts in a layout. A text spells a value if the reader takes the value from it whatever
follows; texts that spell the parts, put between brackets, spell the list of the parts. -/

namespace PartitionPruning

namespace Json

/-! ### Spelling -/

/-- The reader passes over space in front. -/
def SkipsSpace {α : Type} (item : Reader α) : Prop :=
  ∀ space cs, AllSpace space → item (space ++ cs) = item cs

/-- The character may stand first in a value. -/
def isFirst (c : Char) : Bool := !isSpace c && !closes c

/-- The reader takes `x` from the text, and leaves what follows. -/
structure Spells {α : Type} (item : Reader α) (cs : List Char) (x : α) : Prop where
  first : ∃ c ds, cs = c :: ds ∧ isFirst c = true
  reads (rest : List Char) : EndsValue rest → item (cs ++ rest) = some (x, rest)

theorem isSpace_eq_false_of_isFirst {c : Char} (h : isFirst c = true) : isSpace c = false := by
  simp only [isFirst, Bool.and_eq_true, Bool.not_eq_true'] at h
  exact h.1

theorem isSpace_eq_false_of_closes {c : Char} (h : closes c = true) : isSpace c = false := by
  simp only [closes, Bool.or_eq_true, decide_eq_true_eq] at h
  rcases h with rfl | rfl <;> rfl

theorem ne_comma_of_closes {c : Char} (h : closes c = true) : c ≠ ',' := by
  rintro rfl
  contradiction

theorem ne_of_isFirst_of_closes {c d : Char} (hc : isFirst c = true) (hd : closes d = true) :
    c ≠ d := by
  rintro rfl
  simp [isFirst, hd] at hc

/-! ### Lists between brackets -/

theorem readItems_append {α : Type} {item : Reader α} (hskip : SkipsSpace item) {space : List Char}
    (h : AllSpace space) (close : Char) (fuel : Nat) (cs : List Char) :
    readItems close item fuel (space ++ cs) = readItems close item fuel cs := by
  cases fuel with
  | zero => rfl
  | succ fuel => rw [readItems, readItems, hskip space cs h]

namespace Layout

variable (l : Layout) {α : Type} {item : Reader α} {spell : α → List Char} {close : Char}
  (hclose : closes close = true) (depth : Nat)

include hclose

theorem endsValue_following (ts : List (List Char)) (rest : List Char) :
    EndsValue (l.following depth close ts ++ rest) := by
  intro c hc
  cases ts with
  | nil =>
    rw [following, List.append_assoc] at hc
    cases hline : l.line depth with
    | nil =>
      rw [hline] at hc
      obtain rfl := Option.some.inj hc
      simp [isBoundary, hclose]
    | cons d ds =>
      rw [hline] at hc
      obtain rfl := Option.some.inj hc
      simp [isBoundary, l.line_space depth d (hline ▸ List.mem_cons_self)]
  | cons t ts =>
    obtain rfl := Option.some.inj hc
    rfl

/-- Items are read one after the other, as long as there is fuel. -/
theorem readItems_following (hskip : SkipsSpace item) {x : α} {xs : List α}
    (h : ∀ y ∈ x :: xs, Spells item (spell y) y) {fuel : Nat} (hfuel : xs.length < fuel)
    (rest : List Char) :
    readItems close item fuel (spell x ++ l.following depth close (xs.map spell) ++ rest) =
      some (x :: xs, rest) := by
  induction xs generalizing x fuel with
  | nil =>
    obtain ⟨fuel, rfl⟩ := Nat.exists_eq_succ_of_ne_zero (Nat.ne_of_gt hfuel)
    have hread := (h x List.mem_cons_self).reads _ (l.endsValue_following hclose depth [] rest)
    have hskipped : skipSpace (l.following depth close [] ++ rest) = close :: rest := by
      rw [following, List.append_assoc, skipSpace_append (l.line_space depth)]
      exact skipSpace_cons (isSpace_eq_false_of_closes hclose) rest
    rw [List.append_assoc, readItems, List.map_nil, hread, Option.bind_some]
    simp only [hskipped, if_neg (ne_comma_of_closes hclose), if_true]
  | cons y ys ih =>
    obtain ⟨fuel, rfl⟩ := Nat.exists_eq_succ_of_ne_zero (Nat.ne_of_gt (Nat.zero_lt_of_lt hfuel))
    have hread := (h x List.mem_cons_self).reads _
      (l.endsValue_following hclose depth ((y :: ys).map spell) rest)
    have hrest := ih (fun z hz => h z (List.mem_cons_of_mem x hz)) (Nat.lt_of_succ_lt_succ hfuel)
    have hnext : skipSpace (l.following depth close ((y :: ys).map spell) ++ rest) =
        ',' :: (l.line (depth + 1) ++
          (spell y ++ l.following depth close (ys.map spell) ++ rest)) := by
      rw [List.map_cons, following, List.cons_append, List.cons_append, List.cons_append,
        skipSpace_cons rfl, List.append_assoc, List.append_assoc, List.append_assoc]
    have hskipped : readItems close item fuel (l.line (depth + 1) ++
        (spell y ++ l.following depth close (ys.map spell) ++ rest)) = some (y :: ys, rest) := by
      rw [← hrest]
      exact readItems_append hskip (l.line_space _) close fuel _
    rw [List.append_assoc, readItems, hread, Option.bind_some]
    simp only [hnext, if_true, hskipped, Option.map_some]

theorem readList_enclosed (hskip : SkipsSpace item) (xs : List α)
    (h : ∀ x ∈ xs, Spells item (spell x) x) (rest : List Char) :
    readList close item (l.enclosed depth close (xs.map spell) ++ rest) = some (xs, rest) := by
  cases xs with
  | nil =>
    show readList close item (close :: rest) = some ([], rest)
    simp only [readList, skipSpace_cons (isSpace_eq_false_of_closes hclose), if_true]
  | cons x xs =>
    obtain ⟨c, ds, hx, hfirst⟩ := (h x List.mem_cons_self).first
    have hskipped : skipSpace (l.enclosed depth close ((x :: xs).map spell) ++ rest) =
        c :: ds ++ l.following depth close (xs.map spell) ++ rest := by
      rw [List.map_cons, enclosed, hx, List.append_assoc, List.append_assoc,
        skipSpace_append (l.line_space _), ← List.append_assoc]
      exact skipSpace_cons (isSpace_eq_false_of_isFirst hfirst) _
    have hfuel : xs.length < (l.enclosed depth close ((x :: xs).map spell) ++ rest).length := by
      have := l.length_le_enclosed depth close ((x :: xs).map spell)
      simp only [List.length_map, List.length_cons, List.length_append] at this ⊢
      omega
    have hitems := l.readItems_following hclose depth hskip h hfuel rest
    rw [hx] at hitems
    simp only [readList, hskipped, List.cons_append, if_neg (ne_of_isFirst_of_closes hfirst hclose)]
    exact hitems

end Layout

/-! ### Values -/

theorem skipsSpace_readValue (limit : Nat) : SkipsSpace (readValue limit) := by
  intro space cs h
  rw [readValue, readValue, skipSpace_append h]

theorem skipsSpace_readMember {α : Type} (value : String → Reader α) :
    SkipsSpace (readMember value) := by
  intro space cs h
  rw [readMember, readMember, skipSpace_append h]

theorem spells_null (limit : Nat) : Spells (readValue limit) ['n', 'u', 'l', 'l'] .null where
  first := ⟨_, _, rfl, rfl⟩
  reads rest _ := by rw [readValue]; rfl

theorem spells_boolText (limit : Nat) (b : Bool) :
    Spells (readValue limit) (boolText b) (.bool b) where
  first := by cases b <;> exact ⟨_, _, rfl, rfl⟩
  reads rest _ := by cases b <;> (rw [readValue]; rfl)

theorem spells_quoted (limit : Nat) (s : String) :
    Spells (readValue limit) (quoted s) (.string s) where
  first := ⟨_, _, rfl, rfl⟩
  reads rest _ := by
    rw [quoted_append, readValue, skipSpace_cons rfl]
    simp only [readText_escapeText, Option.map_some, String.ofList_toList]

theorem spells_digits (limit : Nat) (n : Int) (range : leastInteger ≤ n ∧ n < integerBound) :
    Spells (readValue limit) (signedDigits n) (.number (.integer n range)) := by
  obtain ⟨c, ds, hds, hc⟩ := exists_signedDigits n
  -- A sign or a digit is no space, and starts no other value.
  have hne (d : Char) (hd : (d != '-' && !d.isDigit) = true) : c ≠ d := by
    rintro rfl
    rcases hc with rfl | hc
    · contradiction
    · simp [hc] at hd
  have hspace : isSpace c = false := by
    simp [isSpace, hne ' ' rfl, hne '\n' rfl, hne '\t' rfl, hne '\r' rfl]
  have hfirst : isFirst c = true := by
    simp [isFirst, closes, hspace, hne ']' rfl, hne '\x7d' rfl]
  refine ⟨⟨c, ds, hds, hfirst⟩, fun rest hrest => ?_⟩
  have hread := readNumber_integer n range hrest
  rw [Number.digits, hds] at hread
  rw [hds, readValue, List.cons_append, skipSpace_cons hspace]
  split
  iterate 6
    · rename_i heq
      exact absurd (List.cons.inj heq).1 (hne _ rfl)
  · rw [← List.cons_append, hread]
    rfl

theorem spells_array (l : Layout) {limit depth : Nat} {xs : List Node}
    (h : ∀ x ∈ xs, Spells (readValue limit) (l.text (depth + 1) x) x) :
    Spells (readValue (limit + 1)) (l.text depth (.array xs)) (.array xs) where
  first := ⟨_, _, rfl, rfl⟩
  reads rest _ := by
    have hread := l.readList_enclosed (show closes ']' = true from rfl) depth
      (skipsSpace_readValue limit) xs h rest
    rw [Layout.text, Layout.itemTexts_eq, readValue, List.cons_append, skipSpace_cons rfl]
    simp only [hread, Option.map_some]

theorem spells_fieldText (l : Layout) {limit : Nat} {key : String} {cs : List Char} {v : Node}
    (h : Spells (readValue limit) cs v) :
    Spells (readMember fun _ => readValue limit) (l.fieldText key cs) (key, v) where
  first := ⟨_, _, rfl, rfl⟩
  reads rest hrest := by
    have hvalue : readValue limit (l.gap ++ (cs ++ rest)) = some (v, rest) := by
      rw [skipsSpace_readValue limit _ _ l.gap_space, h.reads rest hrest]
    have hcolon : skipSpace (':' :: l.gap ++ (cs ++ rest)) = ':' :: (l.gap ++ (cs ++ rest)) :=
      skipSpace_cons rfl _
    rw [Layout.fieldText, List.append_assoc, List.append_assoc, quoted_append, readMember,
      skipSpace_cons rfl]
    simp only [readText_escapeText, Option.bind_some, hcolon, hvalue, Option.map_some,
      String.ofList_toList]

theorem spells_object (l : Layout) {limit depth : Nat} {fs : Fields Node}
    (hkeys : (Fields.keys fs).Nodup)
    (h : ∀ e ∈ fs, Spells (readValue limit) (l.text (depth + 1) e.2) e.2) :
    Spells (readValue (limit + 1)) (l.text depth (.object fs)) (.object fs) where
  first := ⟨_, _, rfl, rfl⟩
  reads rest _ := by
    have hread := l.readList_enclosed (show closes '\x7d' = true from rfl) depth
      (skipsSpace_readMember _) fs (fun e he => spells_fieldText l (h e he)) rest
    rw [Layout.text, Layout.fieldTexts_eq, readValue, List.cons_append, skipSpace_cons rfl]
    simp only [hread, Option.map_some, Fields.ofEntries_of_nodup hkeys]

theorem spells_scalar {n : Node} (hscalar : n.isScalar = true) (hfloats : n.NoFloats)
    (l : Layout) (limit depth : Nat) : Spells (readValue limit) (l.text depth n) n := by
  cases n with
  | null => exact spells_null limit
  | bool b => exact spells_boolText limit b
  | number n =>
    cases n with
    | integer n range => exact spells_digits limit n range
    | float x => exact absurd (hfloats _ (Node.self_mem_parts _)) (by simp [Node.isFloat])
  | string s => exact spells_quoted limit s
  | array xs => contradiction
  | object fs => contradiction

/-- A tree is read back from its text in any layout. -/
theorem spells_text (l : Layout) {limit : Nat} {n : Node} (h : n.Printable limit) (depth : Nat) :
    Spells (readValue limit) (l.text depth n) n := by
  -- Parts are read with a limit one smaller, and stand one deeper in the text.
  induction limit generalizing n depth with
  | zero => exact spells_scalar h.isScalar h.noFloats l 0 depth
  | succ limit ih =>
    cases n with
    | array xs =>
      rw [Node.printable_array_iff] at h
      exact spells_array l fun x hx => ih (h x hx) (depth + 1)
    | object fs =>
      rw [Node.printable_object_iff] at h
      exact spells_object l h.1 fun e he => ih (h.2 e he) (depth + 1)
    | _ => exact spells_scalar rfl h.noFloats l (limit + 1) depth

end Json

end PartitionPruning
