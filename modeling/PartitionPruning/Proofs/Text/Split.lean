import PartitionPruning.Text.Split

/-! Cutting texts that were put together at a separator gives back their parts, if no part holds the
separator itself. -/

namespace PartitionPruning

variable {sep : Char} {cs ds : List Char}

theorem splitFirst?_append (h : sep ∉ cs) : splitFirst? sep (cs ++ sep :: ds) = some (cs, ds) := by
  induction cs with
  | nil => simp [splitFirst?]
  | cons c cs ih =>
    obtain ⟨hc, hcs⟩ := not_or.mp (mt List.mem_cons.mpr h)
    rw [List.cons_append, splitFirst?, if_neg (Ne.symm hc), ih hcs]
    rfl

theorem splitFirst?_eq_some_iff {es : List Char} :
    splitFirst? sep es = some (cs, ds) ↔ sep ∉ cs ∧ es = cs ++ sep :: ds := by
  constructor
  · intro h
    induction es generalizing cs with
    | nil => contradiction
    | cons e es ih =>
      rw [splitFirst?] at h
      split at h
      · rename_i he
        obtain ⟨rfl, rfl⟩ := Prod.mk.inj (Option.some.inj h)
        exact ⟨List.not_mem_nil, by rw [he]; rfl⟩
      · rename_i he
        obtain ⟨⟨as, bs⟩, hrest, heq⟩ := Option.map_eq_some_iff.mp h
        obtain ⟨rfl, rfl⟩ := Prod.mk.inj heq
        obtain ⟨has, rfl⟩ := ih hrest
        exact ⟨mt List.mem_cons.mp (not_or.mpr ⟨Ne.symm he, has⟩), rfl⟩
  · rintro ⟨hcs, rfl⟩
    exact splitFirst?_append hcs

theorem splitFirst?_eq (sep : Char) (cs : List Char) :
    splitFirst? sep cs = match cs.drop (cs.takeWhile (· ≠ sep)).length with
      | [] => none
      | _ :: rest => some (cs.takeWhile (· ≠ sep), rest) := by
  induction cs with
  | nil => rfl
  | cons c cs ih =>
    by_cases hc : c = sep
    · simp [splitFirst?, hc]
    · rw [splitFirst?, if_neg hc, ih, List.takeWhile_cons_of_pos (by simpa using hc),
        List.length_cons, List.drop_succ_cons]
      split <;> rfl

theorem splitAll_of_not_mem (h : sep ∉ cs) : splitAll sep cs = [cs] := by
  induction cs with
  | nil => rfl
  | cons c cs ih =>
    obtain ⟨hc, hcs⟩ := not_or.mp (mt List.mem_cons.mpr h)
    rw [splitAll, if_neg (Ne.symm hc), ih hcs]

theorem splitAll_append (h : sep ∉ cs) :
    splitAll sep (cs ++ sep :: ds) = cs :: splitAll sep ds := by
  induction cs with
  | nil => simp [splitAll]
  | cons c cs ih =>
    obtain ⟨hc, hcs⟩ := not_or.mp (mt List.mem_cons.mpr h)
    rw [List.cons_append, splitAll, if_neg (Ne.symm hc), ih hcs]

theorem splitAll_ne_nil (sep : Char) (cs : List Char) : splitAll sep cs ≠ [] := by
  cases cs with
  | nil => simp [splitAll]
  | cons c cs =>
    rw [splitAll]
    split
    · simp
    · split <;> simp

theorem splitAll_concat (sep : Char) (cs : List Char) :
    splitAll sep (cs ++ [sep]) = splitAll sep cs ++ [[]] := by
  induction cs with
  | nil => simp [splitAll]
  | cons c cs ih =>
    rw [List.cons_append, splitAll, splitAll, ih]
    split
    · rfl
    · obtain ⟨part, parts, hparts⟩ := List.exists_cons_of_ne_nil (splitAll_ne_nil sep cs)
      rw [hparts]
      rfl

/-- Separators at the end are followed by empty parts. -/
theorem splitAll_append_replicate (sep : Char) (cs : List Char) (k : Nat) :
    splitAll sep (cs ++ List.replicate k sep) = splitAll sep cs ++ List.replicate k [] := by
  induction k with
  | zero => simp
  | succ k ih =>
    rw [List.replicate_succ', ← List.append_assoc, splitAll_concat, ih, List.append_assoc,
      ← List.replicate_succ']

/-- Separators in front leave empty parts alone. -/
theorem filter_splitAll_replicate (k : Nat) (cs : List Char) :
    (splitAll sep (List.replicate k sep ++ cs)).filter (fun part => !part.isEmpty) =
      (splitAll sep cs).filter fun part => !part.isEmpty := by
  induction k with
  | zero => rfl
  | succ k ih =>
    rw [List.replicate_succ, List.cons_append, splitAll, if_pos rfl]
    exact ih

theorem exists_eq_dropTrailing_append (sep : Char) (cs : List Char) :
    ∃ k, cs = dropTrailing (· = sep) cs ++ List.replicate k sep := by
  have hparts := List.takeWhile_append_dropWhile (p := fun c => decide (c = sep)) (l := cs.reverse)
  have hall : cs.reverse.takeWhile (· = sep) =
      List.replicate (cs.reverse.takeWhile (· = sep)).length sep :=
    List.eq_replicate_of_mem fun c hc => by
      simpa using List.all_eq_true.mp List.all_takeWhile c hc
  refine ⟨(cs.reverse.takeWhile (· = sep)).length, ?_⟩
  rw [dropTrailing, ← List.reverse_replicate, ← hall, ← List.reverse_append, hparts,
    List.reverse_reverse]

theorem toList_joinWith_cons {text s : String} {ss : List String} (hss : ss ≠ []) :
    (joinWith text (s :: ss)).toList = s.toList ++ (text.toList ++ (joinWith text ss).toList) := by
  cases ss with
  | nil => contradiction
  | cons t ss => simp [joinWith]

theorem splitAll_joinWith {text : String} {ss : List String} (htext : text.toList = [sep])
    (hss : ss ≠ []) (h : ∀ s ∈ ss, sep ∉ s.toList) :
    splitAll sep (joinWith text ss).toList = ss.map String.toList := by
  induction ss with
  | nil => contradiction
  | cons s ss ih =>
    obtain ⟨hs, hrest⟩ := List.forall_mem_cons.mp h
    by_cases hnil : ss = []
    · subst hnil
      exact splitAll_of_not_mem hs
    · rw [toList_joinWith_cons hnil, htext, List.singleton_append, splitAll_append hs,
        ih hnil hrest, List.map_cons]

theorem afterPrefix?_append (cs ds : List Char) : afterPrefix? cs (cs ++ ds) = some ds := by
  induction cs with
  | nil => rfl
  | cons c cs ih => rw [List.cons_append, afterPrefix?, if_pos rfl, ih]

end PartitionPruning
